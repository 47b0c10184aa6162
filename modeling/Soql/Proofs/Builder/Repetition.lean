import Soql.Proofs.Builder.CarryOver

/-!
# Applying a text again

The second time, a text finds its own subqueries in the state. Each of them takes the identity of
the first one on its relationship: that is its own identity, unless the relationship occurs twice
in the text and was new to the state, so that both were numbered. From then on they share one
identity, and further times change nothing.
-/

namespace Soql.Builder

namespace Subquery

/-- A subquery with a namesake takes over its identity and its child object. -/
theorem identify_of_some {known : List Subquery} {s k : Subquery}
    (h : s.namesake? known = some k) (number : Nat) :
    s.identify known number = { s with id := k.id, childObject := k.childObject } := by
  unfold namesake? at h
  unfold identify
  rw [h]

/-- A subquery without a namesake is named by its place. -/
theorem identify_of_none {known : List Subquery} {s : Subquery}
    (h : s.namesake? known = none) (number : Nat) :
    s.identify known number = { s with id := numberedId number } := by
  unfold namesake? at h
  unfold identify
  rw [h]
  rfl

/-- Nothing but identity and child object is given to a subquery. -/
theorem identify_eq (known : List Subquery) (number : Nat) (s : Subquery) :
    s.identify known number =
      { s with
        id := (s.identify known number).id
        childObject := (s.identify known number).childObject } := by
  unfold identify
  split <;> rfl

end Subquery

/-- The subqueries of a text with their identities, when `known` are there. -/
def identifyAll (known subqueries : List Subquery) : List Subquery :=
  subqueries.zipIdx.map fun (s, k) => s.identify known (k + 1)

/-- Of two subqueries on one relationship, the relationship is known. -/
def RepeatsKnown (known subqueries : List Subquery) : Prop :=
  subqueries.Pairwise fun a b =>
    Text.eqIgnoreCase a.relationship b.relationship = true → (a.namesake? known).isSome = true

section Step

variable (known subqueries : List Subquery)

theorem getElem?_identifyAll (k : Nat) :
    (identifyAll known subqueries)[k]? = subqueries[k]?.map (·.identify known (k + 1)) := by
  simp only [identifyAll, List.getElem?_map, List.getElem?_zipIdx, Nat.zero_add, Option.map_map]
  rfl

/-- A subquery that is looked up among those of its own text is found at the first place where its
relationship stands. -/
theorem exists_namesake?_identifyAll {k : Nat} {b : Subquery} (hb : subqueries[k]? = some b) :
    ∃ (j : Nat) (a : Subquery), subqueries[j]? = some a ∧
      Text.eqIgnoreCase a.relationship b.relationship = true ∧
      b.namesake? (identifyAll known subqueries) = some (a.identify known (j + 1)) ∧
      ∀ (i : Nat) (c : Subquery), subqueries[i]? = some c →
        Text.eqIgnoreCase c.relationship b.relationship = true → j ≤ i := by
  have hplace : ∀ (i : Nat) (c : Subquery), subqueries[i]? = some c →
      (identifyAll known subqueries)[i]? = some (c.identify known (i + 1)) := by
    intro i c hc
    rw [getElem?_identifyAll, hc, Option.map_some]
  have hfound : (b.namesake? (identifyAll known subqueries)).isSome = true := by
    unfold Subquery.namesake?
    rw [List.find?_isSome]
    refine ⟨_, List.mem_of_getElem? (hplace k b hb), ?_⟩
    rw [Subquery.relationship_identify, Text.eqIgnoreCase_iff]
  obtain ⟨q, hq⟩ := Option.isSome_iff_exists.1 hfound
  obtain ⟨hsame, j, hj, hjq, hfirst⟩ := List.find?_eq_some_iff_getElem.1 hq
  have hget : (identifyAll known subqueries)[j]? = some q := by
    rw [List.getElem?_eq_getElem hj, hjq]
  rw [getElem?_identifyAll, Option.map_eq_some_iff] at hget
  obtain ⟨a, ha, rfl⟩ := hget
  rw [Subquery.relationship_identify] at hsame
  refine ⟨j, a, ha, hsame, hq, fun i c hc hrel => ?_⟩
  by_contra hlt
  obtain ⟨hi, hic⟩ := List.getElem?_eq_some_iff.1 (hplace i c hc)
  have hno := hfirst i (Nat.lt_of_not_le hlt)
  rw [hic, Subquery.relationship_identify, hrel] at hno
  cases hno

/-- If nothing changes any more, repeated subqueries were known before. -/
theorem repeatsKnown_of_identifyAll
    (hfixed : identifyAll (identifyAll known subqueries) subqueries = identifyAll known subqueries) :
    RepeatsKnown known subqueries := by
  refine List.pairwise_iff_getElem.2 fun i k hi hk hlt hrel => ?_
  have hb := List.getElem?_eq_getElem hk
  obtain ⟨j, a, ha, hsame, hfound, hfirst⟩ := exists_namesake?_identifyAll known subqueries hb
  -- were the relationship new, the later subquery would be numbered twice, by different places
  by_contra hnew
  have hnew : subqueries[i].namesake? known = none := by simpa using hnew
  have hbnew : subqueries[k].namesake? known = none := by
    rw [← hnew, Subquery.namesake?_congr hrel known]
  have hanew : a.namesake? known = none := by
    rw [← hbnew, Subquery.namesake?_congr hsame known]
  have hat := congrArg (·[k]?) hfixed
  simp only [getElem?_identifyAll, hb, Option.map_some, Option.some.injEq] at hat
  rw [Subquery.identify_of_some hfound, Subquery.identify_of_none hbnew,
    Subquery.identify_of_none hanew] at hat
  have hnumber := numberedId_injective (congrArg Subquery.id hat)
  have hle := hfirst i _ (List.getElem?_eq_getElem hi) hrel
  omega

/-- If repeated subqueries are known, nothing changes any more. -/
theorem identifyAll_identifyAll (hknown : RepeatsKnown known subqueries) :
    identifyAll (identifyAll known subqueries) subqueries = identifyAll known subqueries := by
  apply List.ext_getElem?
  intro k
  rw [getElem?_identifyAll, getElem?_identifyAll]
  cases hb : subqueries[k]? with
  | none => rfl
  | some b =>
    obtain ⟨j, a, ha, hsame, hfound, hfirst⟩ := exists_namesake?_identifyAll known subqueries hb
    rw [Option.map_some, Option.map_some, Subquery.identify_of_some hfound]
    have hle := hfirst k b hb (Text.eqIgnoreCase_iff.2 rfl)
    rcases Nat.lt_or_eq_of_le hle with hlt | rfl
    · -- an earlier one: both have the identity that was known
      obtain ⟨hj, haj⟩ := List.getElem?_eq_some_iff.1 ha
      obtain ⟨hk, hbk⟩ := List.getElem?_eq_some_iff.1 hb
      have hsome := List.pairwise_iff_getElem.1 hknown j k hj hk hlt
        (by rw [haj, hbk]; exact hsame)
      rw [haj] at hsome
      obtain ⟨n, hn⟩ := Option.isSome_iff_exists.1 hsome
      rw [Subquery.identify_of_some hn,
        Subquery.identify_of_some ((Subquery.namesake?_congr hsame known).symm.trans hn)]
    · -- itself
      obtain rfl : a = b := Option.some.inj (ha.symm.trans hb)
      rw [← Subquery.identify_eq]

/-- Identities that are looked up again are the same exactly when only known relationships are
repeated. -/
theorem identifyAll_identifyAll_iff :
    identifyAll (identifyAll known subqueries) subqueries = identifyAll known subqueries ↔
      RepeatsKnown known subqueries :=
  ⟨repeatsKnown_of_identifyAll known subqueries, identifyAll_identifyAll known subqueries⟩

/-- Once they are there, all relationships of a text are known. -/
theorem repeatsKnown_identifyAll : RepeatsKnown (identifyAll known subqueries) subqueries := by
  refine List.pairwise_iff_getElem.2 fun i k hi hk hlt hrel => ?_
  obtain ⟨j, a, -, -, hfound, -⟩ :=
    exists_namesake?_identifyAll known subqueries (List.getElem?_eq_getElem hi)
  rw [hfound, Option.isSome_some]

end Step

namespace State

/-- Whatever relationship a text repeats, the state has a subquery on it. -/
def KnowsRepeated (s : State) (text : Text) : Prop :=
  RepeatsKnown s.subqueries ((Query.ofText text).selectItems.filterMap Subquery.ofItem?)

variable {s : State} {text : Text} {r : Report}

/-- A text that is applied to a state that it became gives the subqueries their identities again,
and changes nothing else. -/
theorem apply_of_apply (h : (s.apply text).2 = .ok r) :
    ((s.apply text).1.apply text).2 = .ok r ∧
      ((s.apply text).1.apply text).1 = { (s.apply text).1 with
        subqueries := identifyAll (s.apply text).1.subqueries
          ((Query.ofText text).selectItems.filterMap Subquery.ofItem?) } := by
  simp only [apply, import?_eq] at h ⊢
  cases himport : importable (tokenize text) with
  | error e =>
    rw [himport] at h
    cases h
  | ok object =>
    rw [himport] at h
    cases h
    constructor <;> rfl

/-- The subqueries of a text are told by those of the state. -/
theorem subqueries_of_apply (h : (s.apply text).2 = .ok r) : (s.apply text).1.subqueries =
    identifyAll s.subqueries ((Query.ofText text).selectItems.filterMap Subquery.ofItem?) := by
  rcases apply_cases s text with ⟨hok, -⟩ | ⟨-, e, -, happly⟩
  · unfold isImportable at hok
    rw [subqueries_apply, if_pos hok]
    rfl
  · rw [happly] at h
    cases h

/-- A second application changes nothing exactly if repeated subqueries were known. -/
theorem apply_apply_eq_iff (h : (s.apply text).2 = .ok r) :
    ((s.apply text).1.apply text).1 = (s.apply text).1 ↔ s.KnowsRepeated text := by
  unfold KnowsRepeated
  rw [(apply_of_apply h).2, ← identifyAll_identifyAll_iff, ← subqueries_of_apply h]
  constructor
  · intro heq
    exact congrArg State.subqueries heq
  · intro heq
    rw [heq]

/-- After one application all repeated subqueries are known. -/
theorem knowsRepeated_apply (h : (s.apply text).2 = .ok r) :
    (s.apply text).1.KnowsRepeated text := by
  unfold KnowsRepeated
  rw [subqueries_of_apply h]
  exact repeatsKnown_identifyAll _ _

/-- A text that was applied can be applied again, with the same report. The state stays the same
exactly when every relationship that the text repeats was known before; from the second time on, it
stays the same always. -/
theorem apply_again_iff (h : (s.apply text).2 = .ok r) :
    ((s.apply text).1.apply text).2 = .ok r ∧
      (((s.apply text).1.apply text).1 = (s.apply text).1 ↔ s.KnowsRepeated text) ∧
      ∀ n, s.applyAll (List.replicate (n + 2) text) = s.applyAll [text, text] := by
  have hagain := (apply_of_apply h).1
  have hfixed := (apply_apply_eq_iff hagain).2 (knowsRepeated_apply h)
  refine ⟨hagain, apply_apply_eq_iff h, fun n => ?_⟩
  induction n with
  | zero => rfl
  | succ n ih =>
    rw [List.replicate_succ', applyAll_concat, ih]
    exact hfixed

/-- Accounts with their contacts, which have an identity of their own. -/
def accountWithContacts : State :=
  { ofObject "Account".toList with
    subqueries := [⟨"keep-me".toList, "Contacts".toList, "Contact".toList, "Id".toList, []⟩] }

/-- Contacts selected twice. -/
def contactsTwice : Text :=
  "SELECT (SELECT Id FROM Contacts), (SELECT Name FROM contacts) FROM Account".toList

/-- The second application renames a subquery, and the third one does not. -/
theorem apply_again_iff_contactsTwice :
    (accountWithContacts.apply contactsTwice).2 = .ok ⟨[], [], [], [], false⟩ ∧
      ((accountWithContacts.apply contactsTwice).1.apply contactsTwice).2 =
        .ok ⟨[], [], [], [], false⟩ ∧
      (((accountWithContacts.apply contactsTwice).1.apply contactsTwice).1 =
        (accountWithContacts.apply contactsTwice).1 ↔
          accountWithContacts.KnowsRepeated contactsTwice) ∧
      ∀ n, accountWithContacts.applyAll (List.replicate (n + 2) contactsTwice) =
        accountWithContacts.applyAll [contactsTwice, contactsTwice] := by
  have h : (accountWithContacts.apply contactsTwice).2 = .ok ⟨[], [], [], [], false⟩ := by
    decide +kernel
  exact ⟨h, apply_again_iff h⟩

/-- Two subqueries on one new relationship are numbered, and share the first number when the text
is applied again. -/
theorem not_apply_again : ¬ ∀ (s : State) (text : Text) (r : Report), (s.apply text).2 = .ok r →
    (s.apply text).1.apply text = ((s.apply text).1, .ok r) := by
  intro h
  have hagain := h initial contactsTwice ⟨[], [], [], [], false⟩ (by decide +kernel)
  revert hagain
  decide +kernel

end State

end Soql.Builder
