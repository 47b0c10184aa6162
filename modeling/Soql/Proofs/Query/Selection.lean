import Soql.Proofs.Query.Path
import Soql.Proofs.Query.Search
import Soql.Proofs.Token.Group

/-!
# Select lists, written and read

The items of a select list are written with commas between them, before the object and the clauses
of the query. They are read back when no comma separates an item further and no search for the
object or for a clause stops in one of them; `ItemReadsBack` states that for an item.
-/

namespace Soql

open Kind Token

/-- The clauses that stand behind the object of a written query. -/
def Clause.isArgument : Clause → Bool
  | .condition | .ordering | .limit | .offset => true
  | _ => false

/-- The words that open a clause behind the object on their own. -/
def Kind.opensArgument (k : Kind) : Bool :=
  k == .keyword .WHERE || k == .keyword .LIMIT || k == .keyword .OFFSET

/-- The searches for the clauses behind the object pass over the tokens. -/
def Kind.Unread (ks : List Kind) : Prop :=
  ∀ c : Clause, c.isArgument = true → Passes c.opens ks

/-- An item that is read back from a select list in which it is written. -/
structure ItemReadsBack (item : Text) : Prop where
  piece : Piece item
  ne_nil : item ≠ []
  balanced : Balanced (kindsOf item)
  commas : Clear (headIs Kind.isComma) 0 (kindsOf item) []
  object : Passes (Phrase.leadsKinds [.FROM]) (kindsOf item)

theorem search_from : Search (Phrase.leadsKinds [.FROM]) :=
  search_leadsKinds rfl

/-- No clause is opened where no token starts a phrase. -/
theorem Kind.unread_of_quiet {ks : List Kind}
    (h : ∀ k ∈ ks, k.startsPhrase = false ∧ k ≠ .openParen) : Unread ks :=
  fun c _ => c.search_opens.passes h

/-- What a clause behind the object opens with. -/
theorem Clause.of_opens {c : Clause} (hc : c.isArgument = true) {k : Kind} {ks : List Kind}
    (h : c.opens (k :: ks) = true) : k.opensArgument = true ∨
      k.isWord = true ∧ headIs (· == .keyword .BY) ks = true := by
  cases c with
  | selection => cases hc
  | grouping => cases hc
  | condition => exact .inl (Phrase.eq_of_leadsKinds h ▸ rfl)
  | limit => exact .inl (Phrase.eq_of_leadsKinds h ▸ rfl)
  | offset => exact .inl (Phrase.eq_of_leadsKinds h ▸ rfl)
  | ordering =>
    cases ks with
    | nil => simp [opens, openingWords, Phrase.leadsKinds, List.isPrefixOf] at h
    | cons l ks =>
      simp only [opens, openingWords, Phrase.leadsKinds, List.map_cons, List.map_nil,
        List.isPrefixOf, Bool.and_true, Bool.and_eq_true, beq_iff_eq] at h
      obtain ⟨rfl, rfl⟩ := h
      exact .inr ⟨rfl, rfl⟩

/-- No two words stand side by side in a path. -/
theorem Kind.IsPath.apart {ks : List Kind} (h : IsPath ks) :
    ∀ as k l bs, ks = as ++ k :: l :: bs → k.isWord = true → l.isWord = false := by
  induction h with
  | word isWord =>
    intro as k l bs hks
    have := congrArg List.length hks
    simp only [List.length_cons, List.length_nil, List.length_append] at this
    omega
  | @cons word ks isWord rest ih =>
    intro as k l bs hks hk
    match as with
    | [] =>
      simp only [List.nil_append, List.cons.injEq] at hks
      rw [← hks.2.1]
      rfl
    | [a] =>
      simp only [List.singleton_append, List.cons.injEq] at hks
      rw [← hks.2.1] at hk
      cases hk
    | a :: b :: as =>
      simp only [List.cons_append, List.cons.injEq] at hks
      exact ih as k l bs hks.2.2 hk

/-- A path is not taken for a clause unless a word of it opens one. -/
theorem Kind.IsPath.unread {ks : List Kind} (h : IsPath ks)
    (hopens : ∀ k ∈ ks, k.opensArgument = false) : Unread ks := by
  refine fun c hc => passes_of_apart (fun k hk ls hls => ?_) h.no_group h.apart
  have := Clause.of_opens hc hls
  rwa [hopens k hk, or_iff_right (by simp)] at this

/-- No token of a plain path starts a phrase or opens a parenthesis. -/
theorem PlainPath.quiet {s : Text} (h : PlainPath s) :
    ∀ k ∈ kindsOf s, k.startsPhrase = false ∧ k ≠ .openParen := by
  intro k hk
  rcases h.kinds_eq k hk with rfl | rfl <;> exact ⟨rfl, by simp⟩

theorem PlainPath.unread {s : Text} (h : PlainPath s) : Unread (kindsOf s) :=
  unread_of_quiet h.quiet

namespace ItemReadsBack

/-- A path is read back as an item, if no object is found in it. -/
theorem of_isPath {s : Text} (hpiece : Piece s) (h : IsPath (kindsOf s))
    (hfrom : Passes (Phrase.leadsKinds [.FROM]) (kindsOf s)) : ItemReadsBack s := by
  refine ⟨hpiece, ?_, level?_of_no_group h.no_group 0, clear_of_forall fun k hk _ => ?_, hfrom⟩
  · obtain ⟨k, ks, hk, -⟩ := h.isWord_head
    exact ne_nil_of_kindsOf hk
  · rcases h.isWord_or_dot k hk with hword | rfl
    · cases k <;> first | rfl | cases hword
    · rfl

theorem of_plainPath {s : Text} (h : PlainPath s) : ItemReadsBack s :=
  of_isPath h.piece h.isPath (search_from.passes h.quiet)

/-- Anything balanced in parentheses is read back as an item. -/
theorem group {s : Text} (hclosed : Closed s) (hbal : Balanced (kindsOf s)) :
    ItemReadsBack (Soql.group s) := by
  have hcomma : Passes (headIs Kind.isComma) (kindsOf (Soql.group s)) := by
    rw [kindsOf_group hclosed]
    exact passes_group (fun _ => rfl) hbal
  refine ⟨piece_group hclosed, by simp [Soql.group], ?_, hcomma.clear rfl, ?_⟩
  · rw [kindsOf_group hclosed]
    exact .group hbal
  · rw [kindsOf_group hclosed]
    exact search_from.passes_group hbal

end ItemReadsBack

/-- A search that stops at phrases only passes over items if it passes over each. -/
theorem Search.passes_join {f : List Kind → Bool} (hf : Search f) {items : List Text}
    (hclosed : ∀ x ∈ items, Closed x) (h : ∀ x ∈ items, Passes f (kindsOf x)) :
    Passes f (kindsOf (Text.join ", ".toList items)) := by
  refine separator_comma.passes_join (fun k ks hk => ?_) hclosed h
  obtain rfl := beq_iff_eq.1 hk
  exact ⟨hf.eq_false rfl ks, rfl, by simp⟩

/-- The items of a select list as they are written: `Id` when there are none. -/
def orId (items : List Text) : List Text :=
  if items.isEmpty then ["Id".toList] else items

/-- What holds of the items and of an id holds of what is selected. -/
theorem forall_orId {p : Text → Prop} {items : List Text} (hid : p "Id".toList)
    (h : ∀ x ∈ items, p x) : ∀ x ∈ orId items, p x := by
  intro x hx
  rw [orId] at hx
  split at hx
  · rw [List.mem_singleton.1 hx]
    exact hid
  · exact h x hx

theorem orId_orId (items : List Text) : orId (orId items) = orId items := by
  cases items <;> rfl

/-- An id is read back as an item, should there be no other. -/
theorem ItemReadsBack.orId {items : List Text} (h : ∀ x ∈ items, ItemReadsBack x) :
    ∀ x ∈ orId items, ItemReadsBack x :=
  forall_orId (.of_plainPath plainPath_id) h

section Join

variable {items : List Text} (h : ∀ x ∈ items, ItemReadsBack x)

include h

/-- A selection can be a piece of a query. -/
theorem piece_join_items : Piece (Text.join ", ".toList items) :=
  ⟨Text.tight_join fun x hx => ⟨(h x hx).piece.tight, (h x hx).ne_nil⟩,
    separator_comma.closed_join fun x hx => (h x hx).piece.closed⟩

theorem balanced_join_items : Balanced (kindsOf (Text.join ", ".toList items)) := by
  exact separator_comma.balanced_join (fun _ => no_group_of_isComma)
    (fun x hx => (h x hx).piece.closed) fun x hx => (h x hx).balanced

/-- No object is found in a selection. -/
theorem passes_from_join_items :
    Passes (Phrase.leadsKinds [.FROM]) (kindsOf (Text.join ", ".toList items)) :=
  search_from.passes_join (fun x hx => (h x hx).piece.closed) fun x hx => (h x hx).object

/-- The items of a selection are told apart again. -/
theorem splitItems_selection : splitItems (Text.join ", ".toList items) = items :=
  splitItems_join (fun x hx => ⟨(h x hx).piece, (h x hx).ne_nil⟩) (fun x hx => (h x hx).commas)
    fun x hx => depth_of_level? (h x (List.dropLast_subset _ hx)).balanced

end Join

end Soql
