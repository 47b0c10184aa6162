import Mathlib.Data.Finset.Basic
import Soql.Builder.Json
import Soql.Proofs.Json.Record

/-!
# States are kept and put together again

Whatever a state is, its record is read back as that state: each part is written under a key of its
own and its reader undoes its writer. So when the values of some keys come from the record of
another state, what is read is the first state with those parts of the second (`State.taking`).
-/

namespace Soql

/-- Every operator is read from its spelling. -/
theorem Operator.ofText?_spelling (op : Operator) : ofText? op.spelling = some op := by
  cases op <;> decide +kernel

@[simp] theorem Operator.ofJson?_toJson (op : Operator) : ofJson? op.toJson = some op :=
  ofText?_spelling op

namespace Builder

/-- A subquery comes back from its JSON form. -/
theorem Subquery.ofJson?_toJson (q : Subquery) : ofJson? q.toJson = some q := by
  obtain ⟨id, relationship, childObject, fields, clauses⟩ := q
  cases clauses with
  | nil =>
    rw [ofJson?, toJson, Json.record?_zip (by decide) 1 rfl]
    simp
  | cons c clauses =>
    rw [ofJson?, toJson, Json.record?_zip (by decide) 0 rfl]
    simp

/-- A filter comes back from its JSON form. -/
theorem Filter.ofJson?_toJson (f : Filter) : ofJson? f.toJson = some f := by
  rw [ofJson?, toJson, Json.record?_zip (by decide) 0 rfl]
  simp

@[simp] theorem Direction.ofJson?_toJson (d : Direction) : ofJson? d.toJson = some d := by
  cases d <;> decide

/-- An order comes back from its JSON form. -/
theorem OrderBy.ofJson?_toJson (o : OrderBy) : ofJson? o.toJson = some o := by
  rw [ofJson?, toJson, Json.record?_zip (by decide) 0 rfl]
  simp

namespace State

/-- A count of 32 bits comes back from its JSON form. -/
@[simp] theorem rowsOfJson?_ofNat (n : UInt32) : rowsOfJson? (.ofNat n.toNat) = some n := by
  rw [rowsOfJson?, Json.natBelow?_ofNat n.toNat_lt_size]
  simp

/-- A state comes back from its JSON form, all of it. -/
theorem ofJson?_toJson (s : State) : ofJson? s.toJson = some s := by
  rw [ofJson?, toJson, members, Json.record?_zip (by decide) 0 rfl]
  simp [Json.listOf?_map Subquery.ofJson?_toJson, Json.listOf?_map Filter.ofJson?_toJson,
    Json.nullable?_getD (fun o _ => OrderBy.ofJson?_toJson o) (by simp [OrderBy.toJson])]

/-- The state with the parts that another state has under some keys. -/
def taking (s t : State) (K : Finset Text) : State where
  enabled := if "enabled".toList ∈ K then t.enabled else s.enabled
  object := if "object".toList ∈ K then t.object else s.object
  fields := if "fields".toList ∈ K then t.fields else s.fields
  lookups := if "lookups".toList ∈ K then t.lookups else s.lookups
  subqueries := if "subqueries".toList ∈ K then t.subqueries else s.subqueries
  filters := if "filters".toList ∈ K then t.filters else s.filters
  orderBy := if "orderBy".toList ∈ K then t.orderBy else s.orderBy
  limit := if "limit".toList ∈ K then t.limit else s.limit
  offset := if "offset".toList ∈ K then t.offset else s.offset
  after := if "after".toList ∈ K then t.after else s.after

/-- The members of a state's record that are under some keys. -/
def membersAt (s : State) (K : Finset Text) : List (Text × Json) :=
  s.members.filter fun m => m.1 ∈ K

/-- The keys of a state are distinct. -/
theorem nodup_members (s : State) : (s.members.map Prod.fst).Nodup := by
  change keys.Nodup
  decide

theorem pair_ite {α : Type} {p : Prop} [Decidable p] (write : α → Json) (key : Text) (x y : α) :
    (key, write (if p then y else x)) = if p then (key, write y) else (key, write x) := by
  split <;> rfl

/-- The record of a state with parts of another has a member of one or the other under each key. -/
theorem members_taking (s t : State) (K : Finset Text) : (s.taking t K).members =
    List.zipWith (fun m n => if m.1 ∈ K then n else m) s.members t.members := by
  refine congrArg₂ List.cons (pair_ite Json.bool _ _ _) ?_
  refine congrArg₂ List.cons (pair_ite Json.string _ _ _) ?_
  refine congrArg₂ List.cons (pair_ite Json.ofTexts _ _ _) ?_
  refine congrArg₂ List.cons (pair_ite Json.ofTexts _ _ _) ?_
  refine congrArg₂ List.cons
    (pair_ite (fun l : List Subquery => .array (l.map Subquery.toJson)) _ _ _) ?_
  refine congrArg₂ List.cons
    (pair_ite (fun l : List Filter => .array (l.map Filter.toJson)) _ _ _) ?_
  refine congrArg₂ List.cons
    (pair_ite (fun o : Option OrderBy => (o.map OrderBy.toJson).getD .null) _ _ _) ?_
  refine congrArg₂ List.cons (pair_ite (fun n : UInt32 => .ofNat n.toNat) _ _ _) ?_
  refine congrArg₂ List.cons (pair_ite (fun n : UInt32 => .ofNat n.toNat) _ _ _) ?_
  exact congrArg₂ List.cons (pair_ite Json.string _ _ _) rfl

/-- Merging some members of another state takes over just these. -/
theorem merge?_membersAt (s t : State) (K : Finset Text) :
    s.merge? (t.membersAt K) = some (s.taking t K) := by
  have hsub : ((t.membersAt K).map Prod.fst).Sublist (t.members.map Prod.fst) :=
    List.filter_sublist.map Prod.fst
  have hkeys : s.members.map Prod.fst = t.members.map Prod.fst := rfl
  have hknown : ∀ m ∈ t.membersAt K, m.1 ∈ s.members.map Prod.fst :=
    fun m hm => hsub.subset (List.mem_map_of_mem hm)
  rw [merge?, Json.foldl_setMember (hsub.nodup t.nodup_members) hknown, membersAt,
    Json.map_lookup_filter hkeys t.nodup_members (· ∈ K), ← members_taking]
  exact ofJson?_toJson (s.taking t K)

/-- The record of a state is read back as the state, where a subquery's record has its clauses
unless there are none, and a condition's record the spelling of its operator. With the values of
another state's record under some keys it is read as the state with those parts of the other. -/
theorem ofJson?_toJson_and_merge? (s : State) :
    ofJson? s.toJson = some s ∧
    (∀ q ∈ s.subqueries, q.toJson.get? "clauses".toList =
      if q.clauses.isEmpty then none else some (.string q.clauses)) ∧
    (∀ f ∈ s.filters, f.toJson.get? "op".toList = some (.string f.operator.spelling)) ∧
    ∀ (t : State) (K : Finset Text), s.merge? (t.membersAt K) = some (s.taking t K) := by
  refine ⟨ofJson?_toJson s, ?_, fun f _ => rfl, merge?_membersAt s⟩
  rintro ⟨id, relationship, childObject, fields, clauses⟩ -
  cases clauses <;> rfl

end State

end Builder

end Soql
