import Mathlib.Data.Set.Card
import Soql.Schema.NameMap

/-!
# What is in a table

A table is known by the values that are under its keys, which are names in lower case. Each way of
changing a table is stated by what is in it then; finding, asking and counting are read off the
same membership, since no key is there twice.
-/

namespace Soql.Schema.NameMap

variable {α : Type} (m : NameMap α)

/-- A key has one value. -/
theorem eq_of_mem {key : Text} {v w : α} (hv : (key, v) ∈ m.entries) (hw : (key, w) ∈ m.entries) :
    v = w := by
  have hpair := List.inj_on_of_nodup_map m.distinct hv hw rfl
  exact congrArg Prod.snd hpair

theorem mem_of_lookup {key : Text} {v : α} (h : m.entries.lookup key = some v) :
    (key, v) ∈ m.entries := by
  obtain ⟨before, behind, hentries, -⟩ := List.lookup_eq_some_iff.1 h
  rw [hentries]
  exact List.mem_append_right before (List.mem_cons_self ..)

/-- An entry is what is looked up, as keys are distinct. -/
theorem lookup_eq_some_iff {key : Text} {v : α} :
    m.entries.lookup key = some v ↔ (key, v) ∈ m.entries := by
  refine ⟨m.mem_of_lookup, fun h => ?_⟩
  cases hlookup : m.entries.lookup key with
  | none =>
    have hno := List.lookup_eq_none_iff.1 hlookup (key, v) h
    simp at hno
  | some w => rw [m.eq_of_mem h (m.mem_of_lookup hlookup)]

/-- A value is found under the lower case of a name. -/
theorem get?_eq_some_iff {name : Text} {v : α} :
    m.get? name = some v ↔ (Text.lowercase name, v) ∈ m.entries :=
  m.lookup_eq_some_iff

theorem contains_iff {name : Text} :
    m.contains name = true ↔ ∃ v, (Text.lowercase name, v) ∈ m.entries := by
  unfold contains
  simp only [Option.isSome_iff_exists, get?_eq_some_iff]

/-- Only entries whose value passes the test are kept. -/
theorem mem_keep_iff {p : α → Bool} {key : Text} {v : α} :
    (key, v) ∈ (m.keep p).entries ↔ (key, v) ∈ m.entries ∧ p v = true := by
  unfold keep
  rw [List.mem_filter]

/-- The entry of a name is erased, and no other one. -/
theorem mem_erase_iff {name key : Text} {v : α} :
    (key, v) ∈ (m.erase name).entries ↔ (key, v) ∈ m.entries ∧ key ≠ Text.lowercase name := by
  unfold erase
  rw [List.mem_filter, bne_iff_ne]

/-- An insertion replaces the entry of its name, and no other one. -/
theorem mem_insert_iff {name key : Text} {v w : α} :
    (key, w) ∈ (m.insert name v).entries ↔
      (key = Text.lowercase name ∧ w = v) ∨ ((key, w) ∈ m.entries ∧ key ≠ Text.lowercase name) := by
  unfold insert
  rw [List.mem_cons, Prod.mk.injEq, mem_erase_iff]

/-- What was inserted last under a name is found. -/
theorem get?_insert (name other : Text) (v : α) : (m.insert name v).get? other =
    if Text.lowercase name = Text.lowercase other then some v else m.get? other := by
  refine Option.ext fun w => ?_
  rw [get?_eq_some_iff, mem_insert_iff]
  split
  · next heq => simp [heq, eq_comm]
  · next hne => simp [get?_eq_some_iff, Ne.symm hne]

/-- The number of values is the number of keys. -/
theorem encard_keys : {key | ∃ v, (key, v) ∈ m.entries}.encard = m.size := by
  have hkeys : {key | ∃ v, (key, v) ∈ m.entries} = ↑(m.entries.map Prod.fst).toFinset := by
    ext key
    simp
  rw [hkeys, Set.encard_coe_eq_coe_finsetCard, List.toFinset_card_of_nodup m.distinct,
    List.length_map]
  rfl

end Soql.Schema.NameMap
