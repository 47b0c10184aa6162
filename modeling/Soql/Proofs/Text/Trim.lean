import Mathlib.Data.List.DropRight
import Mathlib.Data.List.TakeWhile
import Soql.Text.Blank

/-!
# Trimming

Parts of a query are kept without the blanks at their ends. A text that neither starts nor ends
with a blank is `Tight`; trimming gives a tight text, keeps a tight one, and does not depend on
blanks that are added at either end.
-/

namespace Soql.Text

/-- Neither the first nor the last character is a blank. -/
structure Tight (s : Text) : Prop where
  first : ∀ c ∈ s.head?, isBlank c = false
  last : ∀ c ∈ s.getLast?, isBlank c = false

theorem trimEnd_eq_rdropWhile (s : Text) : trimEnd s = s.rdropWhile isBlank := rfl

theorem trimStart_append_of_blank {g : Text} (h : ∀ c ∈ g, isBlank c = true) (s : Text) :
    trimStart (g ++ s) = trimStart s :=
  List.dropWhile_append_of_pos h

theorem trimEnd_append_of_blank (s : Text) {g : Text} (h : ∀ c ∈ g, isBlank c = true) :
    trimEnd (s ++ g) = trimEnd s := by
  unfold trimEnd
  rw [List.reverse_append, List.dropWhile_append_of_pos]
  exact fun c hc => h c (List.mem_reverse.1 hc)

theorem trimStart_cons_of_not_blank {c : Char} (h : isBlank c = false) (s : Text) :
    trimStart (c :: s) = c :: s :=
  List.dropWhile_cons_of_neg (by simp [h])

/-- A text that starts with no blank keeps its start. -/
theorem trimStart_eq_self {s : Text} (h : ∀ c ∈ s.head?, isBlank c = false) : trimStart s = s := by
  cases s with
  | nil => rfl
  | cons c s => exact trimStart_cons_of_not_blank (h c rfl) s

/-- A text that ends with no blank keeps its end. -/
theorem trimEnd_eq_self {s : Text} (h : ∀ c ∈ s.getLast?, isBlank c = false) : trimEnd s = s := by
  rw [trimEnd_eq_rdropWhile, List.rdropWhile_eq_self_iff]
  intro hs
  simp [h (s.getLast hs) (List.getLast?_eq_getLast_of_ne_nil hs)]

/-- Blanks before a character that is none do not reach beyond it. -/
theorem trimEnd_append_of_not_blank (s : Text) {t : Text} (ht : trimEnd t ≠ []) :
    trimEnd (s ++ t) = s ++ trimEnd t := by
  unfold trimEnd at *
  rw [List.reverse_append, List.dropWhile_append]
  have hne : (t.reverse.dropWhile isBlank).isEmpty = false := by simpa using ht
  simp [hne]

/-- What stands behind a text with anything but blanks is out of reach from its start. -/
theorem trimStart_append_of_not_blank {s : Text} (hs : trimStart s ≠ []) (t : Text) :
    trimStart (s ++ t) = trimStart s ++ t := by
  unfold trimStart at *
  rw [List.dropWhile_append]
  have hne : (s.dropWhile isBlank).isEmpty = false := by simpa using hs
  simp [hne]

/-- Only blanks leave nothing when the start is trimmed. -/
theorem trimStart_eq_nil_iff {s : Text} : trimStart s = [] ↔ ∀ c ∈ s, isBlank c = true :=
  List.dropWhile_eq_nil_iff

theorem trimEnd_eq_nil_iff {s : Text} : trimEnd s = [] ↔ ∀ c ∈ s, isBlank c = true := by
  rw [trimEnd_eq_rdropWhile, List.rdropWhile_eq_nil_iff]

/-- A trimmed text starts with no blank. -/
theorem head?_trimStart {s : Text} {c : Char} (h : (trimStart s).head? = some c) :
    isBlank c = false := by
  have := List.head?_dropWhile_not isBlank s
  rw [trimStart] at h
  simpa [h] using this

theorem trim_eq_nil_iff {s : Text} : trim s = [] ↔ ∀ c ∈ s, isBlank c = true := by
  rw [trim, trimEnd_eq_nil_iff, ← trimStart_eq_nil_iff (s := s)]
  constructor
  · intro h
    cases hs : trimStart s with
    | nil => rfl
    | cons c t =>
      have hc := head?_trimStart (s := s) (c := c) (by rw [hs]; rfl)
      simp [h c (by simp [hs])] at hc
  · intro h
    simp [h]

/-- What stands before the text that trimming keeps. -/
theorem exists_eq_append_trimStart (s : Text) :
    ∃ g, s = g ++ trimStart s ∧ ∀ c ∈ g, isBlank c = true :=
  ⟨s.takeWhile isBlank, List.takeWhile_append_dropWhile.symm, fun _ hc => List.mem_takeWhile_imp hc⟩

/-- What stands behind the text that trimming keeps. -/
theorem exists_eq_trimEnd_append (s : Text) :
    ∃ g, s = trimEnd s ++ g ∧ ∀ c ∈ g, isBlank c = true :=
  ⟨s.rtakeWhile isBlank, List.rdropWhile_append_rtakeWhile.symm, fun _ hc =>
    List.mem_rtakeWhile_imp hc⟩

/-- Trimming keeps a first character that is no blank. -/
theorem head?_trim {s : Text} {c : Char} (hc : s.head? = some c) (h : isBlank c = false) :
    (trim s).head? = some c := by
  obtain ⟨t, rfl⟩ := List.head?_eq_some_iff.1 hc
  obtain ⟨g, hs, hg⟩ := exists_eq_trimEnd_append (c :: t)
  rw [trim, trimStart_cons_of_not_blank h]
  cases hend : trimEnd (c :: t) with
  | nil =>
    rw [hend, List.nil_append] at hs
    rw [hg c (by simp [← hs])] at h
    cases h
  | cons d u =>
    rw [hend, List.cons_append, List.cons.injEq] at hs
    rw [hs.1, List.head?_cons]

/-- A text is its trimmed part between blanks. -/
theorem exists_eq_append_trim (s : Text) :
    ∃ g h, s = g ++ trim s ++ h ∧ (∀ c ∈ g, isBlank c = true) ∧ ∀ c ∈ h, isBlank c = true := by
  obtain ⟨g, hs, hg⟩ := exists_eq_append_trimStart s
  obtain ⟨h, hs', hh⟩ := exists_eq_trimEnd_append (trimStart s)
  exact ⟨g, h, by rw [List.append_assoc, trim, ← hs', ← hs], hg, hh⟩

/-- Trimming takes away blanks only. -/
theorem mem_trim_iff {s : Text} {c : Char} (hc : isBlank c = false) : c ∈ trim s ↔ c ∈ s := by
  obtain ⟨g, h, hs, hg, hh⟩ := exists_eq_append_trim s
  have hout {b : Text} (hb : ∀ d ∈ b, isBlank d = true) : c ∉ b := fun hmem => by
    rw [hb c hmem] at hc
    cases hc
  constructor
  · intro hmem
    rw [hs]
    simp [hmem]
  · intro hmem
    rw [hs, List.mem_append, List.mem_append] at hmem
    rcases hmem with (hmem | hmem) | hmem
    · exact absurd hmem (hout hg)
    · exact hmem
    · exact absurd hmem (hout hh)

/-- Blanks behind a text do not change what is left of it. -/
theorem trim_append_of_blank (s : Text) {g : Text} (h : ∀ c ∈ g, isBlank c = true) :
    trim (s ++ g) = trim s := by
  unfold trim
  by_cases hs : trimStart s = []
  · have hg : ∀ c ∈ s ++ g, isBlank c = true := by
      intro c hc
      rcases List.mem_append.1 hc with hc | hc
      · exact trimStart_eq_nil_iff.1 hs c hc
      · exact h c hc
    rw [hs, trimStart_eq_nil_iff.2 hg]
  · rw [trimStart_append_of_not_blank hs, trimEnd_append_of_blank _ h]

theorem trim_trimEnd (s : Text) : trim (trimEnd s) = trim s := by
  obtain ⟨g, hs, hg⟩ := exists_eq_trimEnd_append s
  conv => rhs; rw [hs]
  rw [trim_append_of_blank _ hg]

/-- It does not matter whether the blanks at the end are trimmed before joining. -/
theorem trimEnd_append_trimEnd (s t : Text) : trimEnd (s ++ trimEnd t) = trimEnd (s ++ t) := by
  obtain ⟨g, ht, hg⟩ := exists_eq_trimEnd_append t
  conv => rhs; rw [ht]
  rw [← List.append_assoc, trimEnd_append_of_blank _ hg]

theorem trimEnd_ne_nil {s : Text} (h : trim s ≠ []) : trimEnd s ≠ [] := by
  intro hnil
  rw [← trim_trimEnd, hnil] at h
  exact h rfl

/-- Blanks before a text do not change what is left of it. -/
theorem trim_append_blank_left {g : Text} (h : ∀ c ∈ g, isBlank c = true) (s : Text) :
    trim (g ++ s) = trim s := by
  unfold trim
  rw [trimStart_append_of_blank h]

theorem Tight.trim_eq {s : Text} (h : s.Tight) : trim s = s := by
  unfold trim
  rw [trimStart_eq_self h.first, trimEnd_eq_self h.last]

/-- What is left of a text is tight. -/
theorem tight_trim (s : Text) : (trim s).Tight := by
  constructor
  · intro c hc
    obtain ⟨g, hs, -⟩ := exists_eq_trimEnd_append (trimStart s)
    rw [trim, Option.mem_def] at hc
    exact head?_trimStart (s := s) (by rw [hs, List.head?_append, hc, Option.some_or])
  · intro c hc
    have hne : trim s ≠ [] := by
      rintro h
      simp [h] at hc
    have := List.rdropWhile_last_not isBlank (trimStart s) hne
    rw [Option.mem_def, List.getLast?_eq_getLast_of_ne_nil hne, Option.some.injEq] at hc
    simpa [← hc, trim, trimEnd_eq_rdropWhile] using this

/-- The tight texts are those that trimming keeps. -/
theorem trim_eq_self_iff {s : Text} : trim s = s ↔ s.Tight :=
  ⟨fun h => h ▸ tight_trim s, Tight.trim_eq⟩

@[simp] theorem trim_trim (s : Text) : trim (trim s) = trim s :=
  (tight_trim s).trim_eq

@[simp] theorem trim_nil : trim [] = [] := rfl

/-- A text with tight ends is tight. -/
theorem Tight.between {s t : Text} (hs : s.Tight) (ht : t.Tight) (hs' : s ≠ []) (ht' : t ≠ [])
    (middle : Text) : (s ++ (middle ++ t)).Tight := by
  constructor
  · intro c hc
    rw [List.head?_append_of_ne_nil s hs'] at hc
    exact hs.first c hc
  · intro c hc
    rw [List.getLast?_append_of_ne_nil s (List.append_ne_nil_of_right_ne_nil middle ht'),
      List.getLast?_append_of_ne_nil middle ht'] at hc
    exact ht.last c hc

/-- Two tight texts that are not empty are tight together. -/
theorem Tight.append {s t : Text} (hs : s.Tight) (ht : t.Tight) (hs' : s ≠ []) (ht' : t ≠ []) :
    (s ++ t).Tight :=
  hs.between ht hs' ht' []

end Soql.Text
