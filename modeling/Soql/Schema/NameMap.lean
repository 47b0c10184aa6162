import Soql.Text.Lowercase

/-!
# Tables by name

A table holds one value per name, where names that differ only in case are the same name. The
latest value put in under a name is the one that is found.
-/

namespace Soql.Schema

/-- Values under names in lower case, each name at most once. -/
structure NameMap (α : Type) where
  entries : List (Text × α)
  distinct : (entries.map Prod.fst).Nodup

namespace NameMap

variable {α : Type}

/-- The table without values. -/
def empty : NameMap α :=
  ⟨[], List.nodup_nil⟩

/-- The value under a name. -/
def get? (m : NameMap α) (name : Text) : Option α :=
  m.entries.lookup (Text.lowercase name)

/-- Some value is under a name. -/
def contains (m : NameMap α) (name : Text) : Bool :=
  (m.get? name).isSome

/-- All values. -/
def values (m : NameMap α) : List α :=
  m.entries.map Prod.snd

/-- The number of values. -/
def size (m : NameMap α) : Nat :=
  m.entries.length

theorem nodup_filter {entries : List (Text × α)} (h : (entries.map Prod.fst).Nodup)
    (p : Text × α → Bool) : ((entries.filter p).map Prod.fst).Nodup :=
  (List.filter_sublist.map Prod.fst).nodup h

/-- The table with the values that satisfy `p`. -/
def keep (p : α → Bool) (m : NameMap α) : NameMap α :=
  ⟨m.entries.filter fun e => p e.2, nodup_filter m.distinct _⟩

/-- The table without the value under a name. -/
def erase (m : NameMap α) (name : Text) : NameMap α :=
  ⟨m.entries.filter (·.1 != Text.lowercase name), nodup_filter m.distinct _⟩

/-- The table with a value under a name, in place of one that was there. -/
def insert (m : NameMap α) (name : Text) (value : α) : NameMap α :=
  { entries := (Text.lowercase name, value) :: (m.erase name).entries
    distinct := by
      rw [List.map_cons, List.nodup_cons]
      refine ⟨?_, (m.erase name).distinct⟩
      simp [erase] }

end NameMap

end Soql.Schema
