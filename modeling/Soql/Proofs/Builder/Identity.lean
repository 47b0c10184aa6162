import Mathlib.Data.List.Nodup
import Soql.Builder.Import
import Soql.Proofs.Query.Count

/-!
# Identities of subqueries

A subquery on a relationship that the state already has keeps its identity, any other is numbered
by its place. Neither looks at the other: a number may be an identity that is kept, and subqueries
on one relationship all keep the same identity. `ToldApart` leaves both cases out, and the
identities stay distinct through a session exactly when every text that is imported does so.
-/

namespace Soql.Builder

/-- The identity of a subquery that is numbered. -/
def numberedId (number : Nat) : Text :=
  "sq".toList ++ Text.ofNat number

/-- Different places are named differently. -/
theorem numberedId_injective {m n : Nat} (h : numberedId m = numberedId n) : m = n := by
  have := List.append_cancel_left h
  rw [← Text.digitsValue_ofNat m, this, Text.digitsValue_ofNat]

namespace Subquery

/-- The first subquery in `known` on the same relationship. -/
def namesake? (known : List Subquery) (s : Subquery) : Option Subquery :=
  known.find? fun k => Text.eqIgnoreCase k.relationship s.relationship

/-- Subqueries on one relationship have the same namesake. -/
theorem namesake?_congr {a b : Subquery} (h : Text.eqIgnoreCase a.relationship b.relationship = true)
    (known : List Subquery) : a.namesake? known = b.namesake? known := by
  rw [Text.eqIgnoreCase_iff] at h
  simp only [namesake?, Text.eqIgnoreCase, h]

/-- Subqueries with one namesake are on one relationship. -/
theorem eqIgnoreCase_of_namesake? {known : List Subquery} {a b k : Subquery}
    (ha : a.namesake? known = some k) (hb : b.namesake? known = some k) :
    Text.eqIgnoreCase a.relationship b.relationship = true := by
  have hka := List.find?_some ha
  have hkb := List.find?_some hb
  rw [Text.eqIgnoreCase_iff] at *
  exact hka.symm.trans hkb

/-- The identity is the one that is kept, or the number. -/
theorem id_identify (known : List Subquery) (number : Nat) (s : Subquery) :
    (s.identify known number).id =
      ((s.namesake? known).map Subquery.id).getD (numberedId number) := by
  rw [identify, namesake?]
  split <;> next h => rw [h]; rfl

end Subquery

/-- The identities in a list of subqueries are distinct. -/
def HasDistinctIds (subqueries : List Subquery) : Prop :=
  (subqueries.map Subquery.id).Nodup

instance (subqueries : List Subquery) : Decidable (HasDistinctIds subqueries) :=
  inferInstanceAs (Decidable (subqueries.map Subquery.id).Nodup)

/-- No two subqueries keep the same identity, and none is numbered by an identity that is kept. -/
structure ToldApart (known subqueries : List Subquery) : Prop where
  kept : subqueries.Pairwise fun a b =>
    Text.eqIgnoreCase a.relationship b.relationship = true → a.namesake? known = none
  numbered : ∀ p ∈ subqueries.zipIdx, p.1.namesake? known = none →
    ∀ b ∈ subqueries, ∀ k ∈ b.namesake? known, k.id ≠ numberedId (p.2 + 1)

section Step

variable {known subqueries : List Subquery}

/-- Distinct identities tell subqueries apart. -/
theorem toldApart_of_hasDistinctIds
    (h : HasDistinctIds (subqueries.zipIdx.map fun (s, k) => s.identify known (k + 1))) :
    ToldApart known subqueries := by
  rw [HasDistinctIds, List.map_map] at h
  constructor
  · have hpairs := List.pairwise_map.1 h
    rw [← List.zipIdx_map_fst 0 subqueries, List.pairwise_map]
    refine hpairs.imp fun {p q} hne hsame => ?_
    by_contra hkept
    obtain ⟨k, hk⟩ := Option.ne_none_iff_exists'.1 hkept
    refine hne ?_
    simp only [Function.comp_apply, Subquery.id_identify,
      ← Subquery.namesake?_congr hsame known, hk, Option.map_some, Option.getD_some]
  · intro p hp hfresh b hb k hk heq
    obtain ⟨j, hj, rfl⟩ := List.mem_iff_getElem.1 hb
    have hq : (subqueries[j], j) ∈ subqueries.zipIdx := by
      simp [List.mem_zipIdx_iff_getElem?, hj]
    have hsame : p = (subqueries[j], j) := by
      refine List.inj_on_of_nodup_map h hp hq ?_
      simp only [Function.comp_apply, Subquery.id_identify, hfresh, Option.mem_def.1 hk]
      exact heq.symm
    rw [hsame] at hfresh
    rw [hfresh] at hk
    cases hk

theorem eq_of_mem_zipIdx {p q : Subquery × Nat} (hp : p ∈ subqueries.zipIdx)
    (hq : q ∈ subqueries.zipIdx) (hplace : p.2 = q.2) : p = q := by
  rw [List.mem_zipIdx_iff_getElem?] at hp hq
  rw [hplace, hq] at hp
  exact Prod.ext (Option.some.inj hp).symm hplace

/-- Of two subqueries on one relationship the first keeps no identity. -/
theorem ToldApart.namesake?_eq_none (h : ToldApart known subqueries) {p q : Subquery × Nat}
    (hp : p ∈ subqueries.zipIdx) (hq : q ∈ subqueries.zipIdx) (hlt : p.2 < q.2)
    (hsame : Text.eqIgnoreCase p.1.relationship q.1.relationship = true) :
    p.1.namesake? known = none := by
  obtain ⟨hi, hpi⟩ := List.getElem?_eq_some_iff.1 (List.mem_zipIdx_iff_getElem?.1 hp)
  obtain ⟨hj, hqj⟩ := List.getElem?_eq_some_iff.1 (List.mem_zipIdx_iff_getElem?.1 hq)
  have hkept := List.pairwise_iff_getElem.1 h.kept p.2 q.2 hi hj hlt
  rw [hpi, hqj] at hkept
  exact hkept hsame

/-- An identity is kept at one place. -/
theorem ToldApart.eq_of_namesake? (h : ToldApart known subqueries) {p q : Subquery × Nat}
    (hp : p ∈ subqueries.zipIdx) (hq : q ∈ subqueries.zipIdx) {k : Subquery}
    (hpk : p.1.namesake? known = some k) (hqk : q.1.namesake? known = some k) : p = q := by
  rcases Nat.lt_trichotomy p.2 q.2 with hlt | hplace | hgt
  · have hnone := h.namesake?_eq_none hp hq hlt (Subquery.eqIgnoreCase_of_namesake? hpk hqk)
    rw [hpk] at hnone
    cases hnone
  · exact eq_of_mem_zipIdx hp hq hplace
  · have hnone := h.namesake?_eq_none hq hp hgt (Subquery.eqIgnoreCase_of_namesake? hqk hpk)
    rw [hqk] at hnone
    cases hnone

/-- Subqueries that are told apart get distinct identities. -/
theorem hasDistinctIds_of_toldApart (hknown : HasDistinctIds known)
    (h : ToldApart known subqueries) :
    HasDistinctIds (subqueries.zipIdx.map fun (s, k) => s.identify known (k + 1)) := by
  have hnodup : subqueries.zipIdx.Nodup :=
    List.Nodup.of_map Prod.snd (by rw [List.zipIdx_map_snd]; exact List.nodup_range')
  rw [HasDistinctIds, List.map_map, List.nodup_map_iff_inj_on hnodup]
  intro p hp q hq hid
  simp only [Function.comp_apply, Subquery.id_identify] at hid
  have hpmem := List.fst_mem_of_mem_zipIdx hp
  have hqmem := List.fst_mem_of_mem_zipIdx hq
  cases hpk : p.1.namesake? known with
  | none =>
    cases hqk : q.1.namesake? known with
    | none =>
      simp only [hpk, hqk, Option.map_none, Option.getD_none] at hid
      exact eq_of_mem_zipIdx hp hq (Nat.succ_injective (numberedId_injective hid))
    | some k =>
      simp only [hpk, hqk, Option.map_none, Option.getD_none, Option.map_some, Option.getD_some] at hid
      exact absurd hid.symm (h.numbered p hp hpk q.1 hqmem k hqk)
  | some k =>
    cases hqk : q.1.namesake? known with
    | none =>
      simp only [hpk, hqk, Option.map_none, Option.getD_none, Option.map_some, Option.getD_some] at hid
      exact absurd hid (h.numbered q hq hqk p.1 hpmem k hpk)
    | some l =>
      simp only [hpk, hqk, Option.map_some, Option.getD_some] at hid
      obtain rfl : k = l := List.inj_on_of_nodup_map hknown (List.mem_of_find?_eq_some hpk)
        (List.mem_of_find?_eq_some hqk) hid
      exact h.eq_of_namesake? hp hq hpk hqk

end Step

namespace State

/-- The subqueries of a text, when it is imported, are told apart from those of the state and from
each other. -/
def TellsApart (s : State) (text : Text) : Prop :=
  (importable (tokenize text)).isOk = true →
    ToldApart s.subqueries ((Query.ofText text).selectItems.filterMap Subquery.ofItem?)

/-- A refused text leaves the subqueries alone, an imported one gives each of its own an identity. -/
theorem subqueries_apply (s : State) (text : Text) : (s.apply text).1.subqueries =
    if (importable (tokenize text)).isOk then
      ((Query.ofText text).selectItems.filterMap Subquery.ofItem?).zipIdx.map
        fun (q, k) => q.identify s.subqueries (k + 1)
    else s.subqueries := by
  cases h : importable (tokenize text) with
  | error e => simp only [apply, import?, h]; rfl
  | ok object => simp only [apply, import?, h]; rfl

/-- Applying a text keeps identities distinct exactly if it tells its subqueries apart. -/
theorem hasDistinctIds_apply_iff {s : State} (h : HasDistinctIds s.subqueries) (text : Text) :
    HasDistinctIds (s.apply text).1.subqueries ↔ s.TellsApart text := by
  rw [subqueries_apply, TellsApart]
  split
  · next hok =>
    simp only [hok, true_imp_iff]
    exact ⟨toldApart_of_hasDistinctIds, hasDistinctIds_of_toldApart h⟩
  · next hrefused => simp only [h, hrefused, Bool.false_eq_true, false_imp_iff]

theorem applyAll_concat (s : State) (texts : List Text) (text : Text) :
    s.applyAll (texts ++ [text]) = ((s.applyAll texts).apply text).1 := by
  rw [applyAll, List.foldl_append]
  rfl

/-- Identities are distinct in every state of a session exactly when every text tells its
subqueries apart from those that it finds. -/
theorem hasDistinctIds_applyAll_iff (texts : List Text) :
    (∀ before, before <+: texts → HasDistinctIds (initial.applyAll before).subqueries) ↔
      ∀ before text, before ++ [text] <+: texts → (initial.applyAll before).TellsApart text := by
  constructor
  · intro h before text hprefix
    rw [← hasDistinctIds_apply_iff (h before ((List.prefix_append before [text]).trans hprefix)),
      ← applyAll_concat]
    exact h _ hprefix
  · intro h before
    induction before using List.reverseRecOn with
    | nil => exact fun _ => List.nodup_nil
    | append_singleton before text ih =>
      intro hprefix
      rw [applyAll_concat,
        hasDistinctIds_apply_iff (ih ((List.prefix_append before [text]).trans hprefix))]
      exact h before text hprefix

/-- A subquery in front of one that is kept is numbered by the identity of that one. -/
theorem not_hasDistinctIds_applyAll : ¬ ∀ texts : List Text,
    HasDistinctIds (initial.applyAll texts).subqueries := by
  intro h
  have := h ["SELECT (SELECT Id FROM Contacts) FROM Account".toList,
    "SELECT (SELECT Id FROM Cases), (SELECT Id FROM Contacts) FROM Account".toList]
  revert this
  decide +kernel

end State

end Soql.Builder
