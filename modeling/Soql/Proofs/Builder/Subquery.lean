import Soql.Builder.Import
import Soql.Proofs.Query.Layout
import Soql.Proofs.Query.Part
import Soql.Proofs.Query.Selection

/-!
# Subqueries, written and read

A subquery is an item of the select list that holds a query of its own in parentheses. It is read
back when its fields are read back from a select list and the text behind its relationship is
closed and balanced; every subquery that was read from an item is of this kind.
-/

namespace Soql

open Kind Token

/-- A query has no blanks at its ends if its object and what follows have none. -/
theorem tight_writeSelect {items object rest : Text} (hobject : object.Tight) (hne : object ≠ [])
    (hrest : rest.Tight) : (writeSelect items object rest).Tight := by
  have hselect : "SELECT ".toList = 'S' :: "ELECT ".toList := by decide
  unfold writeSelect
  rw [hselect]
  generalize "ELECT ".toList = select
  generalize " FROM ".toList = word
  constructor
  · intro c hc
    obtain rfl : 'S' = c := by simpa using hc
    rfl
  · intro c hc
    split at hc
    · rw [List.append_nil, List.getLast?_append_of_ne_nil _ hne] at hc
      exact hobject.last c hc
    · next hempty =>
      obtain ⟨x, rest, rfl⟩ := List.exists_cons_of_ne_nil (by simpa using hempty)
      rw [List.getLast?_append_of_ne_nil _ (by simp), List.getLast?_cons_cons] at hc
      exact hrest.last c hc

/-- The query in an item that was read is closed, and balanced if the item is. -/
theorem stretch_of_stripOuterParens? {s b : Text} (hs : Closed s)
    (h : stripOuterParens? s = some b) : Piece b ∧ Balanced (kindsOf b) := by
  obtain ⟨o, inside, c, htok, -, -, hlevel, rfl⟩ := stripOuterParens?_eq_some_iff.1 h
  have hstretch := (Piece.of_trim hs).stretch
  rw [htok] at hstretch
  have hinside : Stretch inside := (hstretch.drop 1).left
  refine ⟨.of_stretch hinside, ?_⟩
  rw [Kind.Balanced, kindsOf, hinside.tokenize_trim, hinside.level?_trimmed]
  exact hlevel

/-- A part of a selection is an item that is read back. -/
theorem Clause.Part.itemReadsBack {s : Text} (h : Clause.selection.Part Kind.isComma s)
    (hbal : Balanced (kindsOf s)) : ItemReadsBack s := by
  obtain ⟨rest, hcloses⟩ := h.closes
  have hpass : Passes Clause.selection.closes (kindsOf s) :=
    passes_of_clear (Clause.near_closes _) (depth_of_level? hbal) hcloses
  refine ⟨h.piece, h.ne_nil, hbal, h.separators, hpass.imp fun ls hls => ?_⟩
  exact List.any_eq_true.2 ⟨[.FROM], by simp [Clause.endingWords], hls⟩

/-- The items of a query are the parts of its selection. -/
theorem exists_body_of_mem_selectItems {ts : List Token} {x : Text}
    (hx : x ∈ (Query.ofTokens ts).selectItems) :
    ∃ body, Clause.selection.body? ts = some body ∧ x ∈ splitItems body := by
  change x ∈ ((Clause.selection.body? ts).map splitItems).getD [] at hx
  cases hbody : Clause.selection.body? ts with
  | none => simp [hbody] at hx
  | some body =>
    rw [hbody, Option.map_some, Option.getD_some] at hx
    exact ⟨body, rfl, hx⟩

/-- The items that were read from the select list of a balanced query are read back. -/
theorem itemReadsBack_of_mem {ts : List Token} (h : Stretch ts) (hbal : Balanced (kinds ts)) {x : Text}
    (hx : x ∈ (Query.ofTokens ts).selectItems) : ItemReadsBack x := by
  obtain ⟨body, hbody, hitem⟩ := exists_body_of_mem_selectItems hx
  have hsep : Kind.isComma .openParen = false := rfl
  rw [splitItems_eq] at hitem
  obtain ⟨hpart, hlevel⟩ := Clause.part_of_mem hsep h hbody hitem
  exact hpart.itemReadsBack (hlevel hbal)

/-- The object of a query is a word. -/
theorem exists_tokenize_of_objectName? {ts : List Token} (h : Stretch ts) {name : Text}
    (hname : Token.objectName? ts = some name) :
    ∃ k, tokenize name = [⟨[], k, name⟩] ∧ k.isWord = true := by
  obtain ⟨before, f, t, rest, rfl, -, -, -, hword, rfl⟩ := (objectName?_eq_some_iff h).1 hname
  obtain ⟨c, s, text, start, part, -⟩ := (h.shape (t := t) (by simp)).of_isWord hword
  exact ⟨Kind.ofWord t.text, by rw [text]; exact tokenize_word start part, isWord_ofWord _⟩

/-- What stands behind the object of a query is closed and balanced. -/
theorem Builder.piece_clausesAfterFrom {body name : Text} (hbody : Closed body)
    (hbal : Balanced (kindsOf body)) (hname : Token.objectName? (tokenize body) = some name) :
    Piece (clausesAfterFrom body) ∧ Balanced (kindsOf (clausesAfterFrom body)) := by
  rw [objectName?] at hname
  split at hname
  · next f o rest hfind =>
    split at hname
    · next hword =>
      have hstretch := stretch_tokenize hbody
      obtain ⟨before, htok, -, htop, hfrom⟩ := (Phrase.find?_from_eq_some_iff hstretch _).1 hfind
      rw [kindsOf] at hbal
      rw [htok] at hstretch hbal
      have hrest : Stretch rest := hstretch.right.drop 2
      have hkinds : kinds (before ++ f :: o :: rest) =
          (kinds before ++ [f.kind, o.kind]) ++ (kinds rest ++ []) := by simp
      have hplain : ∀ k ∈ [f.kind, o.kind], k ≠ .openParen ∧ k ≠ .closeParen := by
        have hf : f.kind = .keyword .FROM := Phrase.eq_of_leadsKinds hfrom
        intro k hk
        rw [List.mem_cons, List.mem_singleton] at hk
        rcases hk with rfl | rfl
        · simp [hf]
        · constructor <;> (intro hk; rw [hk] at hword; cases hword)
      rw [hkinds] at hbal
      have hlevel := balanced_of_append hbal (by
        rw [depth_append, htop, depth_of_level? (level?_of_no_group hplain 0)]) (.inl rfl)
      rw [clausesAfterFrom, hfind]
      refine ⟨.of_stretch hrest, ?_⟩
      rwa [Kind.Balanced, kindsOf, hrest.tokenize_trim, hrest.level?_trimmed]
    · cases hname
  · cases hname

namespace Builder

/-- A subquery that is read back, with the items of its select list. -/
structure Subquery.Legible (q : Subquery) (items : List Text) : Prop where
  relationship : ∃ k, tokenize q.relationship = [⟨[], k, q.relationship⟩] ∧ k.isWord = true
  fields : q.fields = Text.join ", ".toList items
  items : ∀ x ∈ items, ItemReadsBack x
  clauses : Piece q.clauses
  balanced : Balanced (kindsOf q.clauses)

/-- A subquery that was read from an item can be read again. -/
theorem Subquery.exists_legible {item : Text} (hclosed : Closed item) {q : Subquery}
    (h : Subquery.ofItem? item = some q) : ∃ items, q.Legible items := by
  simp only [Subquery.ofItem?, Option.bind_eq_bind, Option.bind_eq_some_iff, Option.pure_def,
    Option.some.injEq] at h
  obtain ⟨body, hbody, name, hname, rfl⟩ := h
  obtain ⟨hstrip, -⟩ := Option.filter_eq_some_iff.1 hbody
  obtain ⟨hpiece, hbal⟩ := stretch_of_stripOuterParens? hclosed hstrip
  obtain ⟨hclauses, hlevel⟩ := piece_clausesAfterFrom hpiece.closed hbal hname
  exact ⟨_, exists_tokenize_of_objectName? hpiece.stretch hname, rfl, fun x hx =>
    itemReadsBack_of_mem hpiece.stretch hbal hx, hclauses, hlevel⟩

/-- The identity of a subquery is not written. -/
theorem Subquery.write_identify (known : List Subquery) (number : Nat) (q : Subquery) :
    (q.identify known number).write = q.write := by
  rw [Subquery.identify]
  split <;> rfl

/-- A subquery is written as a query in parentheses. -/
theorem Subquery.write_eq (q : Subquery) : q.write = group (writeSelect
    (if q.fields.trim.isEmpty then "Id".toList else q.fields.trim) q.relationship.trim
    q.clauses.trim) := by
  have hselect : "(SELECT ".toList = '(' :: "SELECT ".toList := by decide
  unfold Subquery.write group writeSelect
  rw [hselect]
  generalize "SELECT ".toList = select
  generalize " FROM ".toList = word
  simp only [List.cons_append, List.append_assoc]

/-- The query in the parentheses of a subquery with some items. -/
def Subquery.body (q : Subquery) (items : List Text) : Text :=
  writeSelect (Text.join ", ".toList (orId items)) q.relationship q.clauses

namespace Subquery.Legible

variable {q : Subquery} {items : List Text} (h : q.Legible items)

include h

theorem piece_relationship : Piece q.relationship ∧ q.relationship ≠ [] := by
  obtain ⟨k, hk, hword⟩ := h.relationship
  refine ⟨.of_tokenize hk (by rintro rfl; cases hword) (by rintro rfl; cases hword), ?_⟩
  intro hnil
  rw [hnil, tokenize_nil] at hk
  cases hk

/-- A subquery without fields selects the id. -/
theorem fields_orId : (if q.fields.isEmpty then "Id".toList else q.fields) =
    Text.join ", ".toList (orId items) := by
  rw [h.fields]
  cases items with
  | nil => rfl
  | cons x xs =>
    have hne : Text.join ", ".toList (x :: xs) ≠ [] :=
      Text.join_ne_nil _ (h.items x (by simp)).ne_nil xs
    rw [if_neg (by simpa using hne)]
    rfl

/-- A legible subquery is written as its body in parentheses. -/
theorem write_eq_group : q.write = group (body q items) := by
  have hfields : q.fields.trim = q.fields := by
    rw [h.fields, (piece_join_items h.items).tight.trim_eq]
  rw [Subquery.write_eq, hfields, h.fields_orId, h.piece_relationship.1.tight.trim_eq,
    h.clauses.tight.trim_eq, body]

/-- The body starts with a selection and a relationship that are read back. -/
theorem exists_heading : ∃ its ts, Heading (Text.join ", ".toList (orId items)) q.relationship
    q.clauses (tokenize (body q items)) its ts := by
  obtain ⟨k, hk, hword⟩ := h.relationship
  exact Soql.exists_heading (piece_join_items (ItemReadsBack.orId h.items)).closed hk hword
    h.clauses.closed

theorem piece_body : Piece (body q items) := by
  obtain ⟨its, ts, hheading⟩ := h.exists_heading
  obtain ⟨hrel, hne⟩ := h.piece_relationship
  exact ⟨tight_writeSelect hrel.tight hne h.clauses.tight, hheading.stretch.closed⟩

/-- The body closes what it opens. -/
theorem balanced_body : Balanced (kindsOf (body q items)) := by
  obtain ⟨its, ts, hheading⟩ := h.exists_heading
  exact hheading.balanced (balanced_join_items (ItemReadsBack.orId h.items)) h.balanced

/-- The body is a query. -/
theorem opensQuery_body : OpensQuery (body q items) := by
  obtain ⟨its, ts, hheading⟩ := h.exists_heading
  obtain ⟨s, f, o, heq, hs, -⟩ := hheading.eq
  rw [OpensQuery, kindsOf, heq, kinds_cons, hs]
  rfl

/-- A legible subquery is read back as an item of a selection. -/
theorem readsBack_write : ItemReadsBack q.write := by
  rw [h.write_eq_group]
  exact .group h.piece_body.closed h.balanced_body

theorem passes_write {f : List Kind → Bool} (hf : Search f) : Passes f (kindsOf q.write) := by
  rw [h.write_eq_group, kindsOf_group h.piece_body.closed]
  exact hf.passes_group h.balanced_body

/-- No clause opens in it outside its parentheses. -/
theorem unread_write : Unread (kindsOf q.write) := fun c _ => h.passes_write c.search_opens

/-- Its body is found in the parentheses. -/
theorem subqueryBody?_write : subqueryBody? q.write = some (body q items) := by
  rw [h.write_eq_group, subqueryBody?, stripOuterParens?_group h.piece_body.closed h.balanced_body,
    h.piece_body.tight.trim_eq, Option.filter_some,
    if_pos ((isAt_select_iff h.piece_body.closed).2 h.opensQuery_body)]

/-- It is recognised as a subquery. -/
theorem ofText_write : SelectItem.ofText q.write = .subquery := by
  rw [SelectItem.ofText, h.subqueryBody?_write]
  rfl

/-- A subquery is read from the item that it is written as. -/
theorem ofItem?_write : Subquery.ofItem? q.write = some
    { q with id := [], childObject := [], fields := Text.join ", ".toList (orId items) } := by
  have hitems := ItemReadsBack.orId h.items
  obtain ⟨its, ts, hheading⟩ := h.exists_heading
  have hpass := passes_from_join_items hitems
  have hselection : Clause.selection.body? (tokenize (body q items)) =
      some (Text.join ", ".toList (orId items)) := by
    rw [hheading.selection_body? (hpass.imp fun ls hls => by
      simpa [Clause.closes, Clause.endingWords] using hls), (piece_join_items hitems).tight.trim_eq]
  have hselect : (Query.ofText (body q items)).selectItems = orId items := by
    change ((Clause.selection.body? (tokenize (body q items))).map splitItems).getD [] = _
    rw [hselection, Option.map_some, Option.getD_some, splitItems_selection hitems]
  have hobject : (Query.ofText (body q items)).objectName = some q.relationship :=
    hheading.objectName? hpass
  have hclauses : clausesAfterFrom (body q items) = q.clauses := by
    obtain ⟨f, o, hfind, -⟩ := hheading.find?_from hpass
    rw [clausesAfterFrom, hfind]
    exact hheading.rest.trim_render.trans h.clauses.tight.trim_eq
  simp only [Subquery.ofItem?, h.subqueryBody?_write, Option.bind_eq_bind, Option.bind_some, hobject,
    hselect, hclauses, Option.pure_def]

end Subquery.Legible

/-- A subquery as it is read back from the item that it is written as. -/
def Subquery.reread (q : Subquery) : Subquery :=
  (Subquery.ofItem? q.write).getD q

namespace Subquery.Legible

variable {q : Subquery} {items : List Text} (h : q.Legible items)

include h

/-- What is read again has no identity yet, and its fields with single blanks between them. -/
theorem reread_eq : q.reread =
    { q with id := [], childObject := [], fields := Text.join ", ".toList (orId items) } := by
  rw [reread, h.ofItem?_write]
  rfl

theorem reread : q.reread.Legible (orId items) := by
  rw [h.reread_eq]
  exact ⟨h.relationship, rfl, ItemReadsBack.orId h.items, h.clauses, h.balanced⟩

theorem write_reread : q.reread.write = q.write := by
  rw [h.reread.write_eq_group, h.write_eq_group, body, body, orId_orId, h.reread_eq]

/-- An identity does not make it less legible. -/
theorem identify (known : List Subquery) (number : Nat) :
    (q.identify known number).Legible items := by
  rw [Subquery.identify]
  split <;> exact ⟨h.relationship, h.fields, h.items, h.clauses, h.balanced⟩

end Subquery.Legible

end Builder

end Soql
