import Soql.Proofs.Builder.Identity
import Soql.Proofs.Builder.ReadBack

/-!
# What an import takes from the previous state

A text decides whether it is imported, what is reported, and all of the state that it becomes but
for what no query states: the switch, the page cursor, and the identity and child object of each
subquery. Those come from the state before, and `State.CarriesOver` says which. So a session leaves
switch and cursor alone, and of its texts the last one that was imported decides the rest.
-/

namespace Soql.Builder

namespace Subquery

/-- A subquery without what its text does not state. -/
def stated (s : Subquery) : Subquery :=
  { s with id := [], childObject := [] }

/-- The subquery at a place, counted from zero, has the identity and child object of the first one
in `known` on its relationship; where there is none, it is numbered and has no child object. -/
def CarriesOver (known : List Subquery) (place : Nat) (s : Subquery) : Prop :=
  match s.namesake? known with
  | some k => s.id = k.id ∧ s.childObject = k.childObject
  | none => s.id = numberedId (place + 1) ∧ s.childObject = []

@[simp] theorem relationship_identify (known : List Subquery) (number : Nat) (s : Subquery) :
    (s.identify known number).relationship = s.relationship := by
  unfold identify
  split <;> rfl

@[simp] theorem stated_identify (known : List Subquery) (number : Nat) (s : Subquery) :
    (s.identify known number).stated = s.stated := by
  unfold identify
  split <;> rfl

/-- An item states neither an identity nor a child object. -/
theorem unnamed_of_ofItem? {item : Text} {s : Subquery} (h : ofItem? item = some s) :
    s.id = [] ∧ s.childObject = [] := by
  simp only [ofItem?, Option.bind_eq_bind, Option.bind_eq_some_iff, Option.pure_def,
    Option.some.injEq] at h
  obtain ⟨body, -, name, -, rfl⟩ := h
  exact ⟨rfl, rfl⟩

/-- A subquery takes over what is known of its relationship, or is named by its place. -/
theorem carriesOver_identify {s : Subquery} (h : s.childObject = []) (known : List Subquery)
    (place : Nat) : (s.identify known (place + 1)).CarriesOver known place := by
  have hsame : (s.identify known (place + 1)).namesake? known = s.namesake? known := by
    unfold namesake?
    rw [relationship_identify]
  unfold CarriesOver
  rw [hsame]
  cases hknown : s.namesake? known with
  | some k =>
    rw [namesake?] at hknown
    rw [identify, hknown]
    constructor <;> rfl
  | none =>
    rw [namesake?] at hknown
    rw [identify, hknown]
    exact ⟨rfl, h⟩

end Subquery

/-- A text becomes a state, whatever the state before is. -/
def isImportable (text : Text) : Bool :=
  (importable (tokenize text)).isOk

/-- The last one of some texts that becomes a state. -/
def lastImportable? (texts : List Text) : Option Text :=
  texts.reverse.find? isImportable

/-- The last text counts if it can be imported. -/
theorem lastImportable?_concat (texts : List Text) (text : Text) :
    lastImportable? (texts ++ [text]) =
      if isImportable text then some text else lastImportable? texts := by
  unfold lastImportable?
  rw [List.reverse_concat, List.find?_cons]
  cases isImportable text <;> rfl

namespace State

/-- A state without what no text states. -/
def stated (s : State) : State :=
  { s with enabled := false, after := [], subqueries := s.subqueries.map Subquery.stated }

/-- What a state has from the one before it: the switch, the cursor, and what its subqueries carry
over. -/
structure CarriesOver (previous s : State) : Prop where
  enabled : s.enabled = previous.enabled
  after : s.after = previous.after
  subqueries : ∀ (place : Nat) (q : Subquery), s.subqueries[place]? = some q →
    q.CarriesOver previous.subqueries place

/-- What no query states comes from the previous state. -/
theorem carriesOver_stateOf (previous : State) (object : Text) (ts : List Token) :
    previous.CarriesOver (stateOf previous object ts) where
  enabled := rfl
  after := rfl
  subqueries place q hq := by
    simp only [stateOf, List.getElem?_map, List.getElem?_zipIdx, Nat.zero_add, Option.map_map,
      Option.map_eq_some_iff, Function.comp_apply] at hq
    obtain ⟨r, hr, rfl⟩ := hq
    obtain ⟨item, -, hitem⟩ := List.mem_filterMap.1 (List.mem_of_getElem? hr)
    exact Subquery.carriesOver_identify (Subquery.unnamed_of_ofItem? hitem).2 _ place

/-- What a query states does not depend on the previous state. -/
theorem stated_stateOf (p q : State) (object : Text) (ts : List Token) :
    (stateOf p object ts).stated = (stateOf q object ts).stated := by
  have hsubqueries : ∀ s : State, (stateOf s object ts).subqueries.map Subquery.stated =
      ((Query.ofTokens ts).selectItems.filterMap Subquery.ofItem?).map Subquery.stated := fun s =>
    map_numbered (g := fun r n => r.identify s.subqueries n) fun r _ n =>
      Subquery.stated_identify s.subqueries n r
  unfold stated
  rw [hsubqueries p, hsubqueries q]
  rfl

/-- Whether a text is imported is decided by the text alone. -/
theorem import?_eq (text : Text) (previous : State) : import? text previous =
    (importable (tokenize text)).map fun object =>
      (stateOf previous object (tokenize text), reportOf (tokenize text)) := by
  unfold import?
  cases h : importable (tokenize text) <;> simp only [h] <;> rfl

/-- A text is refused for one reason, or imported with one report; the states that it becomes are
the same but for what each carries over. -/
theorem import?_frame (text : Text) (p q : State) :
    (∃ e, import? text p = .error e ∧ import? text q = .error e) ∨
      ∃ s t r, import? text p = .ok (s, r) ∧ import? text q = .ok (t, r) ∧ s.stated = t.stated ∧
        p.CarriesOver s ∧ q.CarriesOver t := by
  simp only [import?_eq]
  cases importable (tokenize text) with
  | error e => exact .inl ⟨e, rfl, rfl⟩
  | ok object =>
    exact .inr ⟨_, _, _, rfl, rfl, stated_stateOf p q object _, carriesOver_stateOf p object _,
      carriesOver_stateOf q object _⟩

/-- Applying a text gives the imported state, or leaves the state as it was. -/
theorem apply_cases (s : State) (text : Text) :
    (isImportable text = true ∧ ∃ t r, import? text s = .ok (t, r) ∧ s.apply text = (t, .ok r)) ∨
      (isImportable text = false ∧ ∃ e, import? text s = .error e ∧ s.apply text = (s, .error e)) := by
  simp only [isImportable, apply, import?_eq]
  cases importable (tokenize text) with
  | error e => exact .inr ⟨rfl, e, rfl, rfl⟩
  | ok object => exact .inl ⟨rfl, _, _, rfl, rfl⟩

/-- A text that becomes a state does so from every other state, with the same report. -/
theorem exists_import?_of_import? {text : Text} {s t : State} {r : Report}
    (h : import? text s = .ok (t, r)) (p : State) :
    s.CarriesOver t ∧ ∃ u, import? text p = .ok (u, r) ∧ t.stated = u.stated := by
  rcases import?_frame text s p with
    ⟨e, herror, -⟩ | ⟨_, u, _, hok, hother, hstated, hcarries, -⟩
  · rw [h] at herror
    cases herror
  · rw [h] at hok
    cases hok
    exact ⟨hcarries, u, hother, hstated⟩

/-- A session leaves switch and cursor alone. -/
theorem enabled_and_after_applyAll (s : State) (texts : List Text) :
    (s.applyAll texts).enabled = s.enabled ∧ (s.applyAll texts).after = s.after := by
  induction texts using List.reverseRecOn with
  | nil => exact ⟨rfl, rfl⟩
  | append_singleton texts text ih =>
    rw [applyAll_concat]
    rcases apply_cases (s.applyAll texts) text with ⟨-, t, r, himport, happly⟩ | ⟨-, e, -, happly⟩
    · have hcarries := (exists_import?_of_import? himport initial).1
      rw [happly]
      exact ⟨hcarries.enabled.trans ih.1, hcarries.after.trans ih.2⟩
    · rw [happly]
      exact ih

/-- The last text of a session that is imported decides what the state states; when there is none,
the state is as it was. -/
theorem stated_applyAll (s : State) (texts : List Text) :
    match lastImportable? texts with
    | some text => ∃ t r, import? text initial = .ok (t, r) ∧ (s.applyAll texts).stated = t.stated
    | none => s.applyAll texts = s := by
  induction texts using List.reverseRecOn with
  | nil => rfl
  | append_singleton texts text ih =>
    rw [applyAll_concat, lastImportable?_concat]
    rcases apply_cases (s.applyAll texts) text with
      ⟨hok, t, r, himport, happly⟩ | ⟨hrefused, e, -, happly⟩
    · obtain ⟨-, u, hinitial, hstated⟩ := exists_import?_of_import? himport initial
      rw [if_pos hok, happly]
      exact ⟨u, r, hinitial, hstated⟩
    · rw [if_neg (by simp [hrefused]), happly]
      exact ih

/-- What an import takes from the state before is what the state carries over, and nothing else:
two imports of one text agree in all other parts and in their report or refusal. In a session, a
refused text changes nothing, switch and cursor stay, and the last imported text decides the rest. -/
theorem import?_frame_applyAll :
    (∀ (text : Text) (p q : State),
      (∃ e, import? text p = .error e ∧ import? text q = .error e) ∨
        ∃ s t r, import? text p = .ok (s, r) ∧ import? text q = .ok (t, r) ∧
          s.stated = t.stated ∧ p.CarriesOver s ∧ q.CarriesOver t) ∧
    ∀ (s : State) (texts : List Text),
      (s.applyAll texts).enabled = s.enabled ∧ (s.applyAll texts).after = s.after ∧
      (∀ text,
        (isImportable text = true ∧ ∃ t r, import? text (s.applyAll texts) = .ok (t, r) ∧
          (s.applyAll texts).apply text = (t, .ok r)) ∨
        (isImportable text = false ∧ ∃ e, import? text (s.applyAll texts) = .error e ∧
          (s.applyAll texts).apply text = (s.applyAll texts, .error e))) ∧
      match lastImportable? texts with
      | some text =>
        ∃ t r, import? text initial = .ok (t, r) ∧ (s.applyAll texts).stated = t.stated
      | none => s.applyAll texts = s := by
  refine ⟨import?_frame, fun s texts => ?_⟩
  obtain ⟨henabled, hafter⟩ := enabled_and_after_applyAll s texts
  exact ⟨henabled, hafter, apply_cases (s.applyAll texts), stated_applyAll s texts⟩

end State

end Soql.Builder
