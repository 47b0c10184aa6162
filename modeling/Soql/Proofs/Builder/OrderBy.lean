import Soql.Builder.Import
import Soql.Proofs.Query.Direction
import Soql.Proofs.Query.Part
import Soql.Proofs.Query.Path
import Soql.Proofs.Query.Search

/-!
# Orders, written and read

An order is written as its field with a direction. It is read back when the field is closed and
balanced and neither a direction nor a comma nor the end of the clause stands in it outside
parentheses. A `DESC` anywhere in an item counts as its direction, so a field with one is only
sorted by in descending order.
-/

namespace Soql.Builder

open Kind Token

/-- A field with its direction, as it is written. -/
def OrderBy.write (o : OrderBy) : Text :=
  o.field.trim ++ ' ' :: o.direction.spelling

/-- A field to sort by that is read back. -/
structure OrderBy.Legible (o : OrderBy) : Prop where
  piece : Piece o.field
  ne_nil : o.field ≠ []
  balanced : Balanced (kindsOf o.field)
  commas : Clear (headIs Kind.isComma) 0 (kindsOf o.field) []
  directions : Clear (headIs Kind.isDirection) 0 (kindsOf o.field) []
  descends : .keyword .DESC ∈ kindsOf o.field → o.direction = .descending
  passes : Passes Clause.ordering.closes (kindsOf o.field)

/-- The keyword of a direction. -/
def Direction.keyword : Direction → Keyword
  | .ascending => .ASC
  | .descending => .DESC

theorem Direction.tokenize_spelling (d : Direction) :
    tokenize d.spelling = [⟨[], .keyword d.keyword, d.spelling⟩] := by
  cases d <;> decide +kernel

namespace OrderBy.Legible

variable {o : OrderBy} (h : o.Legible)

include h

/-- An order has the tokens of its field and one for its direction. -/
theorem tokenize_write : tokenize o.write =
    tokenize o.field ++ [⟨[' '], .keyword o.direction.keyword, o.direction.spelling⟩] := by
  rw [OrderBy.write, h.piece.tight.trim_eq, h.piece.tokenize_space, Direction.tokenize_spelling]
  rfl

theorem kindsOf_write :
    kindsOf o.write = kindsOf o.field ++ [.keyword o.direction.keyword] := by
  rw [kindsOf, h.tokenize_write, kinds_append]
  rfl

/-- An order can be a piece of a query. -/
theorem piece_write : Piece o.write := by
  constructor
  · rw [OrderBy.write, h.piece.tight.trim_eq, ← List.singleton_append, ← List.append_assoc]
    constructor
    · intro c hc
      rw [List.append_assoc, List.head?_append_of_ne_nil _ h.ne_nil] at hc
      exact h.piece.tight.first c hc
    · intro c hc
      rw [List.getLast?_append_of_ne_nil _ (by cases o.direction <;> simp [Direction.spelling])] at hc
      revert c
      cases o.direction <;> decide
  · rw [Closed, h.tokenize_write, hasUnclosed_append, h.piece.closed]
    rfl

theorem balanced_write : Balanced (kindsOf o.write) := by
  rw [h.kindsOf_write]
  exact .append h.balanced (level?_of_no_group (by simp) 0)

/-- The searches that pass a field pass its order. -/
theorem passes_write {f : List Kind → Bool} (hf : Search f) (hpass : Passes f (kindsOf o.field)) :
    Passes f (kindsOf o.write) := by
  rw [h.kindsOf_write]
  refine hpass.append (hf.passes ?_) ?_ <;> cases o.direction <;> simp [Direction.keyword,
    Kind.startsPhrase, Keyword.startsPhrase]

/-- An order is one item to sort by. -/
theorem splitItems_write : splitItems o.write = [o.write] := by
  have hclear : Clear (headIs Kind.isComma) 0 (kindsOf o.write) [] := by
    rw [h.kindsOf_write, clear_append_iff]
    exact ⟨h.commas.head _, clear_of_forall fun k hk ls => by
      rw [List.mem_singleton.1 hk]
      rfl⟩
  have hne : o.write ≠ [] := by
    rw [OrderBy.write]
    simp
  have hsep : Kind.isComma .openParen = false := rfl
  rw [splitItems_eq, splitParts_of_clear hsep h.piece_write.tight hne hclear]

/-- An order is read back from the item that it is written as. -/
theorem ofItem_write : OrderBy.ofItem o.write = o := by
  have hfield : stripOrderDirection o.write = o.field :=
    stripOrderDirection_append h.piece h.tokenize_write h.balanced h.directions (by
      cases o.direction <;> rfl)
  have hany : (tokenize o.write).any (·.kind == .keyword .DESC) = true ↔
      o.direction = .descending := by
    have hmem : (tokenize o.write).any (·.kind == .keyword .DESC) = true ↔
        .keyword .DESC ∈ kindsOf o.write := by
      simp [kindsOf, kinds]
    rw [hmem, h.kindsOf_write, List.mem_append]
    constructor
    · rintro (hfield | hdirection)
      · exact h.descends hfield
      · cases hd : o.direction with
        | ascending => simp [hd, Direction.keyword] at hdirection
        | descending => rfl
    · intro hd
      exact .inr (by simp [hd, Direction.keyword])
  obtain ⟨field, direction⟩ := o
  rw [OrderBy.ofItem, hfield]
  cases direction with
  | ascending => rw [if_neg (fun hdesc => by cases hany.1 hdesc)]
  | descending => rw [if_pos (hany.2 rfl)]

end OrderBy.Legible

/-- What was read from an item to sort by is read back, unless the item has no field. -/
theorem OrderBy.legible_ofItem {item : Text} (h : Clause.ordering.Part Kind.isComma item)
    (hbal : Balanced (kindsOf item)) :
    (OrderBy.ofItem item).field = [] ∨ (OrderBy.ofItem item).Legible := by
  obtain ⟨as, bs, htok, hdirection, hstop, hfield⟩ := exists_stripOrderDirection item
  have hstretch := h.piece.stretch
  rw [htok] at hstretch
  have has : Stretch as := hstretch.left
  have hfield' : (OrderBy.ofItem item).field = (render as).trim := hfield
  have hkinds : kindsOf (OrderBy.ofItem item).field = kinds (trimmed as) := by
    rw [hfield', kindsOf, has.tokenize_trim]
  have hitem : kindsOf item = kinds as ++ kinds bs := by rw [kindsOf, htok, kinds_append]
  have hlevel : Balanced (kinds as) := by
    rw [hitem] at hbal
    refine balanced_of_append (show Balanced ([] ++ (kinds as ++ kinds bs)) from hbal) rfl ?_
    exact hstop.imp (fun hnil => by rw [hnil]; rfl) And.left
  have hlevel' : Balanced (kinds (trimmed as)) := by rwa [Kind.Balanced, has.level?_trimmed]
  by_cases hne : (OrderBy.ofItem item).field = []
  · exact .inl hne
  have hseparators := h.separators
  obtain ⟨rest, hcloses⟩ := h.closes
  rw [hitem, clear_append_iff] at hseparators hcloses
  obtain ⟨_, hcommas⟩ := has.exists_clear_trimmed hseparators.1
  obtain ⟨_, hdirections⟩ := has.exists_clear_trimmed hdirection
  obtain ⟨_, hcloses'⟩ := has.exists_clear_trimmed hcloses.1
  refine .inr ⟨hfield' ▸ .of_stretch has, hne, ?_, ?_, ?_, fun hmem => ?_, ?_⟩
  · rwa [hkinds]
  · rw [hkinds]
    exact hcommas.head []
  · rw [hkinds]
    exact hdirections.head []
  · obtain ⟨ks, ls, hsplit, -⟩ := has.exists_kinds_trimmed
    rw [hkinds] at hmem
    have hitem' : .keyword .DESC ∈ kindsOf item := by
      rw [hitem, hsplit]
      simp [hmem]
    obtain ⟨t, ht, hkind⟩ := List.mem_map.1 hitem'
    have hany : (tokenize item).any (·.kind == .keyword .DESC) = true :=
      List.any_eq_true.2 ⟨t, ht, by simp [hkind]⟩
    rw [OrderBy.ofItem, hany]
    rfl
  · rw [hkinds]
    exact passes_of_clear (Clause.near_closes _) (depth_of_level? hlevel') hcloses'

/-- A plain path is read back as a field to sort by. -/
theorem OrderBy.legible_of_plainPath {o : OrderBy} (h : PlainPath o.field) : o.Legible := by
  have hkinds : ∀ k ∈ kindsOf o.field, k ≠ .openParen ∧ k ≠ .closeParen ∧ k.isComma = false ∧
      k.isDirection = false ∧ k ≠ .keyword .DESC ∧ k.startsPhrase = false := by
    intro k hk
    rcases h.kinds_eq k hk with rfl | rfl <;> decide
  refine ⟨h.piece, ?_, level?_of_no_group (fun k hk => ⟨(hkinds k hk).1, (hkinds k hk).2.1⟩) 0,
    clear_of_forall fun k hk _ => (hkinds k hk).2.2.1,
    clear_of_forall fun k hk _ => (hkinds k hk).2.2.2.1,
    fun hk => absurd rfl (hkinds _ hk).2.2.2.2.1,
    Clause.ordering.search_closes.passes fun k hk => ⟨(hkinds k hk).2.2.2.2.2, (hkinds k hk).1⟩⟩
  obtain ⟨k, ks, hk, -⟩ := h.isPath.isWord_head
  exact ne_nil_of_kindsOf hk

end Soql.Builder
