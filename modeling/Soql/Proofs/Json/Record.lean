import Soql.Json.Record
import Soql.Proofs.Query.Count

/-!
# Records written and read

A record is written as an object that pairs its keys with values, in the order of the keys, where
values at the end may be left out. As no key is repeated, `record?` gives these values back, and
nothing for the keys that were left out (`record?_zip`). Members can be replaced before that:
a patch of known keys changes their values in place (`foldl_setMember`).
-/

namespace Soql.Json

section Lookup

variable {members others patch : List (Text × Json)}

theorem lookup_of_not_mem {key : Text} (h : key ∉ members.map Prod.fst) :
    members.lookup key = none := by
  rw [List.lookup_eq_none_iff]
  intro m hm
  rw [bne_iff_ne]
  rintro rfl
  exact h (List.mem_map_of_mem hm)

/-- A member is found under its key. -/
theorem lookup_of_mem (hkeys : (members.map Prod.fst).Nodup) {m : Text × Json} (hm : m ∈ members) :
    members.lookup m.1 = some m.2 := by
  obtain ⟨before, behind, rfl⟩ := List.append_of_mem hm
  have hfirst : m.1 ∉ before.map Prod.fst := by
    rw [List.map_append, List.map_cons, List.perm_middle.nodup_iff, List.nodup_cons] at hkeys
    exact fun h => hkeys.1 (List.mem_append_left _ h)
  rw [List.lookup_append, lookup_of_not_mem hfirst, List.lookup_cons_self, Option.none_or]

/-- What is found among the members under the keys in `p`. -/
theorem lookup_filter (p : Text → Prop) [DecidablePred p] (key : Text) :
    (members.filter fun m => p m.1).lookup key = if p key then members.lookup key else none := by
  induction members with
  | nil => simp
  | cons m members ih =>
    obtain ⟨k, value⟩ := m
    rw [List.filter_cons]
    by_cases hk : key = k
    · rw [hk] at ih ⊢
      by_cases hp : p k
      · simp [hp]
      · simpa [hp] using ih
    · have hskip : (key == k) = false := beq_false_of_ne hk
      rw [List.lookup_cons, hskip, ← ih]
      split
      · rw [List.lookup_cons, hskip]
      · rfl

/-- What an object without repeated keys gives under a key. -/
theorem single?_eq (hkeys : (members.map Prod.fst).Nodup) (key : Text) :
    single? members key = some (members.lookup key) := by
  unfold single?
  induction members with
  | nil => rfl
  | cons m members ih =>
    obtain ⟨hnew, hrest⟩ := List.nodup_cons.1 hkeys
    rw [List.lookup_cons, List.filter_cons, BEq.comm (a := key)]
    cases hm : m.1 == key with
    | false => exact ih hrest
    | true =>
      have hnone : members.filter (·.1 == key) = [] := by
        rw [List.filter_eq_nil_iff]
        rintro n hn hkey
        rw [eq_of_beq hm, ← eq_of_beq hkey] at hnew
        exact hnew (List.mem_map_of_mem hn)
      rw [if_pos rfl, hnone]

theorem keys_zip_sublist (keys : List Text) (values : List Json) :
    ((keys.zip values).map Prod.fst).Sublist keys := by
  induction keys generalizing values with
  | nil => simp
  | cons key keys ih =>
    cases values with
    | nil => simp
    | cons value values => exact (ih values).cons_cons key

/-- The keys of a record are found in the order of their values, and the last ones may be
missing. -/
theorem map_lookup_zip {keys : List Text} (hkeys : keys.Nodup) {values : List Json}
    (missing : Nat) (hlength : values.length + missing = keys.length) :
    keys.map ((keys.zip values).lookup ·) = values.map some ++ List.replicate missing none := by
  induction keys generalizing values with
  | nil =>
    obtain ⟨hvalues, hmissing⟩ := Nat.add_eq_zero_iff.1 hlength
    rw [List.eq_nil_of_length_eq_zero hvalues, hmissing]
    rfl
  | cons key keys ih =>
    obtain ⟨hnew, hrest⟩ := List.nodup_cons.1 hkeys
    cases values with
    | nil =>
      rw [List.length_nil, Nat.zero_add] at hlength
      simp [hlength, List.replicate_succ]
    | cons value values =>
      have hskip : ∀ k ∈ keys, ((key :: keys).zip (value :: values)).lookup k =
          (keys.zip values).lookup k := by
        intro k hk
        have hne : (k == key) = false := beq_false_of_ne fun h => hnew (h ▸ hk)
        rw [List.zip_cons_cons, List.lookup_cons, hne]
      have htail : values.length + missing = keys.length := by
        simp only [List.length_cons] at hlength
        omega
      rw [List.map_cons, List.map_congr_left hskip, ih hrest htail]
      simp

/-- What is read of a record that was written without the values of its last keys. -/
theorem record?_zip {keys : List Text} (hkeys : keys.Nodup) {values : List Json} (missing : Nat)
    (hlength : values.length + missing = keys.length) (least : Nat) :
    record? keys least (.object (keys.zip values)) =
      some (values.map some ++ List.replicate missing none) := by
  have hsingle : single? (keys.zip values) = fun key => pure ((keys.zip values).lookup key) :=
    funext (single?_eq ((keys_zip_sublist keys values).nodup hkeys))
  rw [record?, hsingle, List.mapM_pure, map_lookup_zip hkeys missing hlength]
  rfl

/-- Setting a member that is there replaces its value in place. -/
theorem setMember_eq_map {key : Text} (value : Json) (h : key ∈ members.map Prod.fst) :
    setMember key value members =
      members.map fun m => if m.1 == key then (key, value) else m := by
  obtain ⟨m, hm, hkey⟩ := List.mem_map.1 h
  have hany : members.any (·.1 == key) = true := by
    rw [List.any_eq_true]
    exact ⟨m, hm, beq_iff_eq.2 hkey⟩
  rw [setMember, if_pos hany]

theorem keys_setMember {key : Text} (value : Json) (h : key ∈ members.map Prod.fst) :
    (setMember key value members).map Prod.fst = members.map Prod.fst := by
  rw [setMember_eq_map value h, List.map_map]
  refine List.map_congr_left fun m _ => ?_
  rw [Function.comp_apply]
  split
  · next hkey => exact (eq_of_beq hkey).symm
  · rfl

/-- A patch whose keys are all there replaces their values and keeps the order. -/
theorem foldl_setMember (hpatch : (patch.map Prod.fst).Nodup)
    (hknown : ∀ m ∈ patch, m.1 ∈ members.map Prod.fst) :
    patch.foldl (fun members m => setMember m.1 m.2 members) members =
      members.map fun m => (m.1, (patch.lookup m.1).getD m.2) := by
  induction patch generalizing members with
  | nil => simp
  | cons n patch ih =>
    obtain ⟨hnew, hrest⟩ := List.nodup_cons.1 hpatch
    have hn := hknown n (List.mem_cons_self ..)
    have hstill : ∀ m ∈ patch, m.1 ∈ (setMember n.1 n.2 members).map Prod.fst := by
      intro m hm
      rw [keys_setMember n.2 hn]
      exact hknown m (List.mem_cons_of_mem _ hm)
    rw [List.foldl_cons, ih hrest hstill, setMember_eq_map n.2 hn, List.map_map]
    refine List.map_congr_left fun m _ => ?_
    rw [Function.comp_apply, List.lookup_cons]
    cases hm : m.1 == n.1 with
    | false => simp
    | true =>
      -- no later part of the patch has this key
      rw [eq_of_beq hm]
      simp [lookup_of_not_mem hnew]

/-- Members that have other values under the keys in `p`: those of an object with the same keys. -/
theorem map_lookup_filter (hkeys : members.map Prod.fst = others.map Prod.fst)
    (hdistinct : (others.map Prod.fst).Nodup) (p : Text → Prop) [DecidablePred p] :
    members.map (fun m => (m.1, ((others.filter fun n => p n.1).lookup m.1).getD m.2)) =
      List.zipWith (fun m n => if p m.1 then n else m) members others := by
  have hlength : members.length = others.length := by simpa using congrArg List.length hkeys
  refine List.ext_getElem (by simp [hlength]) fun i hi hi' => ?_
  rw [List.length_map] at hi
  have hother : i < others.length := hlength ▸ hi
  have hkey : members[i].1 = others[i].1 := by
    simpa [hi, hother] using congrArg (·[i]?) hkeys
  have hfound := lookup_of_mem hdistinct (List.getElem_mem hother)
  rw [List.getElem_map, List.getElem_zipWith, lookup_filter, hkey, hfound]
  split
  · rfl
  · exact Prod.ext hkey.symm rfl

end Lookup

section Values

variable {α : Type}

@[simp] theorem needed_some (read : Json → Option α) (value : Json) :
    needed read (some value) = read value := rfl

@[simp] theorem withDefault_some (default : α) (read : Json → Option α) (value : Json) :
    withDefault default read (some value) = read value := rfl

@[simp] theorem withDefault_none (default : α) (read : Json → Option α) :
    withDefault default read none = some default := rfl

@[simp] theorem text?_string (s : Text) : text? (.string s) = some s := rfl

@[simp] theorem bool?_bool (b : Bool) : bool? (.bool b) = some b := rfl

/-- A count below the bound is read as itself. -/
theorem natBelow?_ofNat {n bound : Nat} (h : n < bound) : natBelow? bound (.ofNat n) = some n := by
  rw [ofNat, natBelow?, Text.isDigits_ofNat, Text.digitsValue_ofNat]
  simp [h]

/-- A list is read as it was written, if its items are. -/
theorem listOf?_map {read : Json → Option α} {write : α → Json}
    (h : ∀ x, read (write x) = some x) (xs : List α) :
    listOf? read (.array (xs.map write)) = some xs := by
  have hread : read ∘ write = fun x => pure x := funext h
  rw [listOf?, List.mapM_map, hread, List.mapM_pure, List.map_id']
  rfl

@[simp] theorem listOf?_ofTexts (ss : List Text) : listOf? text? (.ofTexts ss) = some ss :=
  listOf?_map text?_string ss

/-- What is written for a missing value is null, and nothing else is. -/
theorem nullable?_getD {read : Json → Option α} {write : α → Json} {x? : Option α}
    (h : ∀ x ∈ x?, read (write x) = some x) (hnull : ∀ x ∈ x?, write x ≠ .null) :
    nullable? read ((x?.map write).getD .null) = some x? := by
  cases x? with
  | none => rfl
  | some x =>
    have hread := h x rfl
    have hwrite := hnull x rfl
    rw [Option.map_some, Option.getD_some]
    cases hx : write x <;> simp_all [nullable?]

@[simp] theorem nullable?_ofText? (s? : Option Text) : nullable? text? (.ofText? s?) = some s? := by
  cases s? <;> rfl

end Values

end Soql.Json
