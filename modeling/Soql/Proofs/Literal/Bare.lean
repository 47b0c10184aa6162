import Soql.Proofs.Token.Characters
import Soql.Decimal.Canonical
import Soql.Literal.Bind

/-!
# Numbers and bind variables as tokens

Canonical numbers and bind variables are written into a query as they stand. Neither holds a blank,
a quote, a parenthesis or a comma; a number holds no words, and the words of a bind variable are
never side by side.
-/

namespace Soql

open Kind Token

namespace Decimal

/-- The two forms of a decimal without sign. -/
theorem exists_digits_of_ofText? {s : Text} {d : Decimal} (h : ofText? s = some d) :
    ∃ whole, Text.isDigits whole = true ∧
      (s = whole ∨ ∃ fraction, Text.isDigits fraction = true ∧ s = whole ++ '.' :: fraction) := by
  have hsplit := List.takeWhile_append_dropWhile (p := Char.isDigit) (l := s)
  rw [ofText?] at h
  split at h
  · cases h
  · next hwhole =>
    simp only [Bool.or_eq_true, not_or, Bool.not_eq_true] at hwhole
    refine ⟨s.takeWhile Char.isDigit, ?_, ?_⟩
    · rw [Text.isDigits, hwhole.1, Bool.not_false, Bool.true_and, List.all_eq_true]
      exact fun c hc => List.mem_takeWhile_imp hc
    · split at h
      · next hrest =>
        rw [hrest, List.append_nil] at hsplit
        exact .inl hsplit.symm
      · next fraction hrest =>
        split at h
        · next hfraction =>
          rw [Bool.and_eq_true] at hfraction
          exact .inr ⟨fraction, hfraction.1, by rw [← hrest, hsplit]⟩
        · cases h
      · cases h

/-- Numbers are read from digits and points only. -/
theorem chars_of_ofText? {s : Text} {d : Decimal} (h : ofText? s = some d) :
    s ≠ [] ∧ ∀ c ∈ s, c.isDigit = true ∨ c = '.' := by
  obtain ⟨whole, hwhole, hs⟩ := exists_digits_of_ofText? h
  simp only [Text.isDigits_iff] at hwhole hs
  rcases hs with rfl | ⟨fraction, hfraction, rfl⟩
  · exact ⟨hwhole.1, fun c hc => .inl (hwhole.2 c hc)⟩
  · refine ⟨List.append_ne_nil_of_left_ne_nil hwhole.1 _, fun c hc => ?_⟩
    rcases List.mem_append.1 hc with hc | hc
    · exact .inl (hwhole.2 c hc)
    · rcases List.mem_cons.1 hc with rfl | hc
      · exact .inr rfl
      · exact .inl (hfraction.2 c hc)

end Decimal

/-- The characters of a canonical number. -/
theorem chars_of_isCanonicalNumber {s : Text} (h : isCanonicalNumber s = true) :
    s ≠ [] ∧ ∀ c ∈ s, c.isDigit = true ∨ c = '.' ∨ c = '-' := by
  rw [isCanonicalNumber, Bool.or_eq_true, beq_iff_eq] at h
  rcases h with rfl | h
  · decide
  · split at h
    · next d hd =>
      obtain ⟨hne, hchars⟩ := Decimal.chars_of_ofText? hd
      have hsign : ∀ c ∈ s, c = '-' ∨ c ∈ (if s.head? == some '-' then s.drop 1 else s) := by
        intro c hc
        split
        · next hhead =>
          obtain ⟨u, rfl⟩ := List.head?_eq_some_iff.1 (beq_iff_eq.1 hhead)
          simpa using hc
        · exact .inr hc
      refine ⟨fun hnil => hne (by rw [hnil]; rfl), fun c hc => ?_⟩
      rcases hsign c hc with rfl | hc
      · exact .inr (.inr rfl)
      · rcases hchars c hc with hdigit | rfl
        · exact .inl hdigit
        · exact .inr (.inl rfl)
    · cases h

theorem not_isBlank_of_number {s : Text} (h : isCanonicalNumber s = true) :
    ∀ c ∈ s, Text.isBlank c = false := by
  intro c hc
  rcases (chars_of_isCanonicalNumber h).2 c hc with hdigit | rfl | rfl
  · exact not_isBlank_of_isDigit hdigit
  · rfl
  · rfl

/-- A number has none of the characters of groups, lists and quoted texts. -/
theorem not_mem_of_number {s : Text} (h : isCanonicalNumber s = true) :
    ∀ c ∈ s, c ∉ flatExceptions := by
  intro c hc hexc
  have hfacts : ∀ d ∈ flatExceptions, d.isDigit = false ∧ d ≠ '.' ∧ d ≠ '-' := by decide
  obtain ⟨hdigit, hpoint, hsign⟩ := hfacts c hexc
  rcases (chars_of_isCanonicalNumber h).2 c hc with h | h | h
  · rw [hdigit] at h; cases h
  · exact hpoint h
  · exact hsign h

/-- A number has no words. -/
theorem not_isWord_of_number {s : Text} (h : isCanonicalNumber s = true) :
    ∀ k ∈ kinds (tokenize s), k.isWord = false := by
  intro k hk
  obtain ⟨t, ht, rfl⟩ := List.mem_map.1 hk
  by_contra hword
  obtain ⟨c, hc, hstart⟩ := exists_isWordStart_of_mem ht (by simpa using hword)
  rcases (chars_of_isCanonicalNumber h).2 c hc with hdigit | rfl | rfl
  · rw [isWordStart_of_isDigit hdigit] at hstart
    cases hstart
  · cases hstart
  · cases hstart

namespace Text

/-- Letters and numerals are no blanks. -/
theorem not_isBlank_of_isAlphanumeric {c : Char} (h : isAlphanumeric c = true) :
    isBlank c = false := by
  have hranges : ∀ range ∈ alphanumericRanges, ∀ n ∈ [0x85, 0xA0, 0x1680, 0x2028, 0x2029, 0x202F,
      0x205F, 0x3000], ¬(range.1 ≤ n ∧ n ≤ range.2) ∧ (range.2 < 0x2000 ∨ 0x200A < range.1) := by
    decide +kernel
  rw [isAlphanumeric] at h
  split at h
  · exact not_isBlank_of_isWordPart (by simp [isWordPart, h])
  · next hwide =>
    rw [List.any_eq_true] at h
    obtain ⟨⟨first, last⟩, hmem, hin⟩ := h
    simp only [Bool.and_eq_true, decide_eq_true_eq] at hin
    have hpoint := fun n hn => (hranges _ hmem n hn).1
    have hspan := (hranges _ hmem 0x85 (by simp)).2
    simp only [List.mem_cons, List.not_mem_nil, or_false, forall_eq_or_imp, forall_eq] at hpoint
    by_contra hblank
    simp only [Bool.not_eq_false, isBlank, Bool.or_eq_true, Bool.and_eq_true, decide_eq_true_eq,
      beq_iff_eq] at hblank
    omega

end Text

namespace Literal

/-- The characters of a bind variable. -/
theorem chars_of_isBindVariable {s : Text} (h : isBindVariable s = true) :
    s.head? = some ':' ∧
      ∀ c ∈ s, Text.isAlphanumeric c = true ∨ c = '_' ∨ c = '.' ∨ c = ':' := by
  unfold isBindVariable at h
  split at h
  · next name =>
    simp only [Bool.and_eq_true, List.all_eq_true, Bool.or_eq_true, beq_iff_eq] at h
    refine ⟨rfl, fun c hc => ?_⟩
    rcases List.mem_cons.1 hc with rfl | hc
    · exact .inr (.inr (.inr rfl))
    · rcases h.2 c hc with (h | h) | h
      · exact .inl h
      · exact .inr (.inl h)
      · exact .inr (.inr (.inl h))
  · cases h

theorem not_isBlank_of_isBindVariable {s : Text} (h : isBindVariable s = true) :
    ∀ c ∈ s, Text.isBlank c = false := by
  intro c hc
  rcases (chars_of_isBindVariable h).2 c hc with h | rfl | rfl | rfl
  · exact Text.not_isBlank_of_isAlphanumeric h
  · rfl
  · rfl
  · rfl

/-- A bind variable has none of the characters of groups, lists and quoted texts. -/
theorem not_mem_of_isBindVariable {s : Text} (h : isBindVariable s = true) :
    ∀ c ∈ s, c ∉ flatExceptions := by
  intro c hc hexc
  have hfacts : ∀ d ∈ flatExceptions, Text.isAlphanumeric d = false ∧ d ≠ '_' ∧ d ≠ '.' ∧
      d ≠ ':' := by decide +kernel
  obtain ⟨halnum, hunder, hpoint, hcolon⟩ := hfacts c hexc
  rcases (chars_of_isBindVariable h).2 c hc with h | h | h | h
  · rw [halnum] at h; cases h
  · exact hunder h
  · exact hpoint h
  · exact hcolon h

end Literal

end Soql
