import Soql.Proofs.Query.Selection

/-!
# Columns as they are written

A query selects columns and aggregates, with or without an alias, and groups by columns, on their own
or as the arguments of a `ROLLUP` or `CUBE`. A column is a path or a call; the names in paths, of
functions and of aliases are plain, and the arguments of a call are any balanced text.

An alias is taken off a path, and it stays on a call: what an item is compared by is `comparedText?`.
-/

namespace Soql

open Kind Token

/-- The tokens outside parentheses that names, paths and calls have, and the parenthesis of a call. -/
def Kind.isItemPart (k : Kind) : Bool :=
  k == .identifier || k == .dot || k == .openParen

/-- An item of a list in which no search stops, unless it stops at a name, a point or a group. -/
structure Inert (s : Text) : Prop where
  piece : Piece s
  ne_nil : s ≠ []
  balanced : Balanced (kindsOf s)
  passes {f : List Kind → Bool} (h : ∀ k, k.isItemPart = true → ∀ ls, f (k :: ls) = false) :
    Passes f (kindsOf s)

/-- The name and the arguments of a call: a plain name and a balanced text without open quotes. -/
structure IsCall (function arguments : Text) : Prop where
  name : PlainName function
  closed : Closed arguments
  balanced : Balanced (kindsOf arguments)

/-- A text with an alias behind it, if there is one. -/
def withAlias (s : Text) : Option Text → Text
  | some name => s ++ ' ' :: name
  | none => s

/-- No search stops in a path, unless it stops at names or points. -/
theorem PlainPath.inert {s : Text} (h : PlainPath s) : Inert s := by
  have hitem := ItemReadsBack.of_plainPath h
  refine ⟨h.piece, hitem.ne_nil, hitem.balanced, fun {f} hf => ?_⟩
  have hkinds := h.kinds_eq
  generalize kindsOf s = ks at hkinds ⊢
  induction ks with
  | nil => exact passes_nil
  | cons k ks ih =>
    have hrest := ih fun l hl => hkinds l (by simp [hl])
    rcases hkinds k (by simp) with rfl | rfl
    · exact .cons (hf _ rfl) rfl hrest
    · exact .cons (hf _ rfl) rfl hrest

namespace Inert

variable {s : Text} (h : Inert s)

include h

/-- The searches for keywords pass over an inert text. -/
theorem passes_of_search {f : List Kind → Bool} (hf : Search f) : Passes f (kindsOf s) := by
  refine h.passes fun k hk => hf.eq_false ?_
  cases k <;> first | rfl | cases hk

/-- An inert text is an item of a list. -/
theorem itemReadsBack : ItemReadsBack s := by
  refine ⟨h.piece, h.ne_nil, h.balanced, (h.passes fun k hk ls => ?_).clear rfl,
    h.passes_of_search search_from⟩
  cases k <;> first | rfl | cases hk

variable {label : Option Text} (hlabel : ∀ name ∈ label, PlainName name)

include hlabel

theorem tokenize_withAlias : tokenize (withAlias s label) =
    tokenize s ++ (label.map fun name => ⟨[' '], .identifier, name⟩).toList := by
  cases label with
  | none => simp [Soql.withAlias]
  | some name =>
    rw [Soql.withAlias, h.piece.tokenize_space, show tokenize name = _ from hlabel name rfl]
    rfl

theorem kindsOf_withAlias : kindsOf (withAlias s label) =
    kindsOf s ++ (label.map fun _ => Kind.identifier).toList := by
  rw [kindsOf, h.tokenize_withAlias hlabel, kinds_append]
  cases label <;> rfl

/-- An alias is one more name. -/
theorem withAlias : Inert (withAlias s label) := by
  have hkinds := h.kindsOf_withAlias hlabel
  cases label with
  | none => exact h
  | some name =>
    have hname := (hlabel name rfl).plainPath.inert
    rw [Option.map_some, Option.toList_some] at hkinds
    constructor
    · exact ⟨h.piece.tight.between hname.piece.tight h.ne_nil hname.ne_nil [' '],
        h.piece.closed.space _ hname.piece.closed⟩
    · simp [Soql.withAlias]
    · rw [hkinds]
      exact h.balanced.append (.cons (by simp) (by simp) rfl)
    · intro f hf
      rw [hkinds]
      exact (h.passes hf).append (.cons (hf _ rfl) rfl passes_nil) rfl

end Inert

theorem SelectItem.isColumn_ofPath (ts : List Token) : (ofPath ts).isColumn = true := by
  rw [ofPath]
  split
  · split
    · split <;> rfl
    · rfl
  · rfl

/-- An alias behind a path is taken off. -/
theorem PlainPath.stripAlias_withAlias {p : Text} (h : PlainPath p) {label : Option Text}
    (hlabel : ∀ name ∈ label, PlainName name) : stripAlias (withAlias p label) = p := by
  have htok := h.inert.tokenize_withAlias hlabel
  cases label with
  | none =>
    have hlength := Path.length?_eq_length_iff.2 h.isPath
    simp only [withAlias, stripAlias, hlength, List.drop_length]
    exact h.piece.tight.trim_eq
  | some name =>
    have hlength : Path.length? (tokenize p ++ [⟨[' '], .identifier, name⟩]) =
        some (tokenize p).length :=
      Path.length?_of_isPath h.isPath (Path.stops_of_headIs rfl)
    rw [Option.map_some, Option.toList_some] at htok
    simp only [stripAlias, htok, hlength, List.drop_left, List.take_left]
    rw [if_pos (by rfl), h.piece.render]
    exact h.piece.tight.trim_eq

namespace IsCall

/-- Paths with commas between them are arguments. -/
theorem of_paths {function : Text} (hname : PlainName function) (paths : List Text)
    (hpaths : ∀ p ∈ paths, PlainPath p) : IsCall function (Text.join ", ".toList paths) := by
  have hitems : ∀ p ∈ paths, ItemReadsBack p := fun p hp => .of_plainPath (hpaths p hp)
  exact ⟨hname, (piece_join_items hitems).closed, balanced_join_items hitems⟩

variable {function arguments : Text} (h : IsCall function arguments)

include h

theorem tokenize_eq : tokenize (function ++ group arguments) =
    ⟨[], .identifier, function⟩ :: tokenize (group arguments) := by
  rw [h.name.plainPath.piece.tokenize_append (by rfl), show tokenize function = _ from h.name]
  rfl

/-- A call has the kinds of its arguments, in parentheses behind a name. -/
theorem kindsOf_eq : kindsOf (function ++ group arguments) =
    .identifier :: .openParen :: (kindsOf arguments ++ [.closeParen]) := by
  rw [kindsOf, h.tokenize_eq, kinds_cons, ← kindsOf_group h.closed]
  rfl

theorem inert : Inert (function ++ group arguments) := by
  have hname := h.name.plainPath.inert
  constructor
  · exact hname.piece.append (piece_group h.closed) hname.ne_nil (by simp [group]) (by rfl)
  · simp [group]
  · rw [h.kindsOf_eq]
    exact .cons (by simp) (by simp) h.balanced.group
  · intro f hf
    rw [h.kindsOf_eq]
    exact .cons (hf _ rfl) rfl (passes_group (hf _ rfl) h.balanced)

/-- What a call in a select list is does not depend on an alias. -/
theorem ofText_withAlias {label : Option Text} (hlabel : ∀ name ∈ label, PlainName name) :
    SelectItem.ofText (withAlias (function ++ group arguments) label) =
      SelectItem.ofCall function := by
  obtain ⟨g, hgroup⟩ := exists_tokenize_group h.closed
  have htok := h.inert.tokenize_withAlias hlabel
  rw [h.tokenize_eq, hgroup] at htok
  exact SelectItem.ofText_of_call (h.inert.withAlias hlabel).piece.tight htok rfl rfl

/-- The path at the front of a call is the name of the function, and more than an alias is left. -/
theorem stripAlias_withAlias {label : Option Text} (hlabel : ∀ name ∈ label, PlainName name) :
    stripAlias (withAlias (function ++ group arguments) label) =
      withAlias (function ++ group arguments) label := by
  obtain ⟨t, u, ts, hgroup, ht⟩ : ∃ t u ts, tokenize (group arguments) = t :: u :: ts ∧
      t.kind = .openParen := by
    obtain ⟨g, hgroup⟩ := exists_tokenize_group h.closed
    cases harguments : tokenize arguments with
    | nil => exact ⟨_, _, [], by rw [hgroup, harguments]; rfl, rfl⟩
    | cons u ts => exact ⟨_, u, ts ++ _, by rw [hgroup, harguments]; rfl, rfl⟩
  have htok := h.inert.tokenize_withAlias hlabel
  generalize (label.map fun name => (⟨[' '], .identifier, name⟩ : Token)).toList = ls at htok
  rw [h.tokenize_eq, hgroup] at htok
  have hlength : Path.length? ([⟨[], .identifier, function⟩] ++ t :: u :: (ts ++ ls)) = some 1 :=
    Path.length?_of_isPath (.word rfl) (Path.stops_of_headIs (by rw [kinds_cons, ht]; rfl))
  rw [stripAlias, htok]
  simp only [List.cons_append, List.nil_append] at hlength ⊢
  simp only [hlength, List.drop_one, List.tail_cons]
  exact (h.inert.withAlias hlabel).piece.tight.trim_eq

end IsCall

/-- What rows can be grouped by. -/
inductive Column
  | path (names : Text)
  | call (function arguments : Text)

namespace Column

def text : Column → Text
  | path names => names
  | call function arguments => function ++ group arguments

def isCall : Column → Bool
  | path _ => false
  | call .. => true

/-- The names are plain, and the function is neither an aggregate nor a macro. -/
def Plain : Column → Prop
  | path names => PlainPath names
  | call function arguments => IsCall function arguments ∧ SelectItem.ofCall function = .expression

/-- The text that a column in a select list is compared by: an alias is taken off a path only. -/
def comparedText : Column → Option Text → Text
  | path names, _ => names
  | call function arguments, label => withAlias (function ++ group arguments) label

theorem inert {c : Column} (h : c.Plain) : Inert c.text := by
  cases c with
  | path names => exact PlainPath.inert h
  | call function arguments => exact h.1.inert

variable {c : Column} (h : c.Plain) {label : Option Text} (hlabel : ∀ name ∈ label, PlainName name)

include h hlabel

/-- An alias does not make a column anything else. -/
theorem isColumn_withAlias : (SelectItem.ofText (withAlias c.text label)).isColumn = true := by
  cases c with
  | path names =>
    have hpath : PlainPath names := h
    obtain ⟨t, ts, htok, hword, hopen⟩ := hpath.isPath.exists_tokenize
    have halias := hpath.inert.tokenize_withAlias hlabel
    rw [htok, List.cons_append] at halias
    have hpiece := (hpath.inert.withAlias hlabel).piece
    rw [text, SelectItem.ofText_of_no_call hpiece.tight halias hword]
    · exact SelectItem.isColumn_ofPath _
    · rw [kinds_append]
      cases ts with
      | nil => cases label <;> rfl
      | cons u ts => exact hopen
  | call function arguments =>
    rw [text, h.1.ofText_withAlias hlabel, h.2]
    rfl

/-- An alias is taken off a path only. -/
theorem stripAlias_withAlias : stripAlias (withAlias c.text label) = c.comparedText label := by
  cases c with
  | path names => exact PlainPath.stripAlias_withAlias h hlabel
  | call function arguments => exact h.1.stripAlias_withAlias hlabel

end Column

/-- An item of a select list that is grouped: a column or an aggregate, with or without an alias. -/
inductive Selected
  | column (c : Column) (label : Option Text)
  | aggregate (function arguments : Text) (label : Option Text)

namespace Selected

def write : Selected → Text
  | column c label => withAlias c.text label
  | aggregate function arguments label => withAlias (function ++ group arguments) label

/-- The columns and names are plain, and the function of an aggregate is one. -/
def Plain : Selected → Prop
  | column c label => c.Plain ∧ ∀ name ∈ label, PlainName name
  | aggregate function arguments label => IsCall function arguments ∧
    SelectItem.ofCall function = .aggregate ∧ ∀ name ∈ label, PlainName name

/-- The text that an item is compared by, if it is a column. -/
def comparedText? : Selected → Option Text
  | column c label => some (c.comparedText label)
  | aggregate .. => none

variable {i : Selected} (h : i.Plain)

include h

theorem inert : Inert i.write := by
  cases i with
  | column c label => exact (Column.inert h.1).withAlias h.2
  | aggregate function arguments label => exact h.1.inert.withAlias h.2.2

/-- What is compared with the grouping is the item without its alias, if it is a column. -/
theorem comparedText?_eq : comparedText? i =
    if (SelectItem.ofText i.write).isColumn then some (stripAlias i.write) else none := by
  cases i with
  | column c label =>
    rw [write, if_pos (c.isColumn_withAlias h.1 h.2), c.stripAlias_withAlias h.1 h.2]
    rfl
  | aggregate function arguments label =>
    rw [write, h.1.ofText_withAlias h.2.2, h.2.1]
    rfl

end Selected

/-- The function groups by subtotals of its arguments. -/
def isSubtotals (function : Text) : Bool :=
  Text.eqIgnoreCase function "ROLLUP".toList || Text.eqIgnoreCase function "CUBE".toList

/-- An item to group by: a column, or columns to take subtotals of. -/
inductive Grouping
  | column (c : Column)
  | subtotals (function : Text) (columns : List Column)

namespace Grouping

/-- The columns that rows are grouped by. -/
def columns : Grouping → List Column
  | column c => [c]
  | subtotals _ columns => columns

def write : Grouping → Text
  | column c => c.text
  | subtotals function columns => function ++ group (Text.join ", ".toList (columns.map Column.text))

/-- The columns are plain, and a call that groups by subtotals is not taken for a column. -/
def Plain : Grouping → Prop
  | column c => c.Plain ∧
    ∀ function arguments, c = .call function arguments → isSubtotals function = false
  | subtotals function columns => PlainName function ∧ isSubtotals function = true ∧
    ∀ c ∈ columns, c.Plain

theorem plain_of_mem_columns {g : Grouping} (h : g.Plain) : ∀ c ∈ g.columns, c.Plain := by
  cases g with
  | column c => simpa [columns] using h.1
  | subtotals function columns => exact h.2.2

section Subtotals

variable {function : Text} {columns : List Column} (h : (subtotals function columns).Plain)

include h

theorem itemReadsBack_of_mem : ∀ x ∈ columns.map Column.text, ItemReadsBack x := by
  intro x hx
  obtain ⟨c, hc, rfl⟩ := List.mem_map.1 hx
  exact (Column.inert (h.2.2 c hc)).itemReadsBack

/-- A grouping function is called with the columns as its arguments. -/
theorem isCall : IsCall function (Text.join ", ".toList (columns.map Column.text)) :=
  ⟨h.1, (piece_join_items (itemReadsBack_of_mem h)).closed, balanced_join_items (itemReadsBack_of_mem h)⟩

end Subtotals

variable {g : Grouping} (h : g.Plain)

include h

theorem inert : Inert g.write := by
  cases g with
  | column c => exact Column.inert h.1
  | subtotals function columns => exact (isCall h).inert

/-- The arguments of a `ROLLUP` or `CUBE` are grouped by, any other column itself. -/
theorem expandGrouping_write : expandGrouping g.write = g.columns.map Column.text := by
  cases g with
  | column c =>
    have hstarts : Token.startsGroupingCall (tokenize c.text) = false := by
      cases c with
      | path names =>
        obtain ⟨t, ts, htok, -, hopen⟩ := (PlainPath.isPath h.1).exists_tokenize
        rw [Column.text, htok]
        cases ts with
        | nil => rfl
        | cons u ts =>
          have hu : (u.kind == .openParen) = false := hopen
          simp [Token.startsGroupingCall, hu]
      | call function arguments =>
        have hother : isSubtotals function = false := h.2 function arguments rfl
        obtain ⟨g, hgroup⟩ := exists_tokenize_group h.1.1.closed
        rw [Column.text, h.1.1.tokenize_eq, hgroup, Token.startsGroupingCall]
        exact (congrArg (_ && ·) hother).trans (Bool.and_false _)
    rw [write, expandGrouping, hstarts]
    rfl
  | subtotals function columns =>
    have hitems := itemReadsBack_of_mem h
    have hcall := isCall h
    have hpiece := piece_join_items hitems
    have hgroup : Token.render ((tokenize (write (subtotals function columns))).drop 1) =
        group (Text.join ", ".toList (columns.map Column.text)) := by
      rw [write, hcall.tokenize_eq]
      exact (piece_group hcall.closed).render
    have hstarts : Token.startsGroupingCall (tokenize (write (subtotals function columns))) = true := by
      obtain ⟨g, hopen⟩ := exists_tokenize_group hcall.closed
      rw [write, hcall.tokenize_eq, hopen, Token.startsGroupingCall]
      exact h.2.1
    rw [expandGrouping, if_pos hstarts, hgroup, stripOuterParens?_group hcall.closed hcall.balanced,
      hpiece.tight.trim_eq]
    exact splitItems_selection hitems

end Grouping

end Soql
