import Soql.Proofs.Token.Lexeme
import Soql.Text.Lowercase

/-!
# What a lower-case text comes from

Apart from a capital I with a dot and a capital sigma, which leave characters beyond ASCII behind,
lower-casing goes character by character. An ASCII character comes from an ASCII character, except
for the letter k, which is also the lower case of the Kelvin sign.
-/

namespace Soql.Text

/-- The sign of the unit of temperature, whose lower case is an ordinary k. -/
def kelvin : Char :=
  '\u212a'

/-- The lower case of a character that stands on its own. -/
def lowerOne (c : Char) : Char :=
  if c.toNat < 128 then c.toLower
  else
    match caseRuns.find? fun run => run.first ≤ c.toNat && c.toNat ≤ run.last &&
        (c.toNat - run.first) % run.step == 0 with
    | some run => Char.ofNat (c.toNat + run.distance).toNat
    | none => c

/-- Only one letter has more than one character as its lower case. -/
theorem lowercaseChar_eq {c : Char} (h : c ≠ 'İ') : lowercaseChar c = [lowerOne c] := by
  by_cases hc : c.toNat < 128
  · rw [lowercaseChar, if_pos hc, lowerOne, if_pos hc]
  · rw [lowercaseChar, if_neg hc, if_neg (by simpa using h), lowerOne, if_neg hc]
    cases caseRuns.find? _ <;> rfl

/-- Within ASCII the rules of Unicode are the usual ones. -/
theorem lowerOne_of_lt {c : Char} (h : c.toNat < 128) : lowerOne c = c.toLower :=
  if_pos h

/-- A character beyond ASCII has itself as its lower case, or is moved on by the distance of its
run. -/
theorem lowerOne_cases {c : Char} (hc : 128 ≤ c.toNat) : lowerOne c = c ∨ ∃ run ∈ caseRuns,
    run.first ≤ c.toNat ∧ c.toNat ≤ run.last ∧
      ((lowerOne c).toNat : Int) = c.toNat + run.distance := by
  have hruns : ∀ run ∈ caseRuns, 0 ≤ (run.first : Int) + run.distance ∧
      ((run.last : Int) + run.distance < 0xD800 ∨ 0xDFFF < (run.first : Int) + run.distance ∧
        (run.last : Int) + run.distance < 0x110000) := by
    decide +kernel
  rw [lowerOne, if_neg (by omega)]
  split
  · next run hfind =>
    have hrange := List.find?_some hfind
    simp only [Bool.and_eq_true, decide_eq_true_eq] at hrange
    have hmem := List.mem_of_find?_eq_some hfind
    obtain ⟨hlow, hvalid⟩ := hruns run hmem
    have hvalid' : (c.toNat + run.distance).toNat.isValidChar := by
      rw [Nat.isValidChar]
      omega
    have hnat : (Char.ofNat (c.toNat + run.distance).toNat).toNat =
        (c.toNat + run.distance).toNat := by
      rw [Char.ofNat, dif_pos hvalid']
      rfl
    exact .inr ⟨run, hmem, hrange.1.1, hrange.1.2, by rw [hnat]; omega⟩
  · exact .inl rfl

/-- Only the Kelvin sign becomes an ASCII character. -/
theorem eq_kelvin_of_lowerOne {c : Char} (hc : 128 ≤ c.toNat) (h : (lowerOne c).toNat < 128) :
    c = kelvin := by
  have hruns : ∀ run ∈ caseRuns, 128 ≤ (run.first : Int) + run.distance ∨
      run.first = 0x212A ∧ run.last = 0x212A := by
    decide +kernel
  rcases lowerOne_cases hc with hsame | ⟨run, hrun, hfirst, hlast, hlower⟩
  · rw [hsame] at h
    omega
  · rcases hruns run hrun with hlow | ⟨hfirst', hlast'⟩
    · omega
    · rw [← Char.toNat_inj]
      change c.toNat = 0x212A
      omega

/-- A text without the two letters that need more than one character, or a look around, is
lower-cased one by one. -/
theorem lowercase_eq_map_of_not_mem {s : Text} (h : 'İ' ∉ s ∧ 'Σ' ∉ s) :
    lowercase s = s.map lowerOne := by
  have hafter : ∀ (s before : Text), 'İ' ∉ s ∧ 'Σ' ∉ s →
      lowercaseAfter before s = s.map lowerOne := by
    intro s
    induction s with
    | nil => exact fun _ _ => rfl
    | cons c s ih =>
      intro before h
      simp only [List.mem_cons, not_or] at h
      have hsigma : ¬(c == 'Σ') = true := by
        rw [beq_iff_eq]
        exact fun hc => h.2.1 hc.symm
      rw [lowercaseAfter, if_neg hsigma, lowercaseChar_eq fun hc => h.1.1 hc.symm,
        ih (c :: before) ⟨h.1.2, h.2.2⟩]
      rfl
  exact hafter s [] h

/-- A text that leaves nothing beyond ASCII but blanks behind is lower-cased one by one. -/
theorem lowercase_eq_map {s : Text} (h : ∀ c ∈ lowercase s, c ≠ '\u0307' ∧ c ≠ 'σ' ∧ c ≠ 'ς') :
    lowercase s = s.map lowerOne := by
  have hafter : ∀ (s before : Text),
      (∀ c ∈ lowercaseAfter before s, c ≠ '\u0307' ∧ c ≠ 'σ' ∧ c ≠ 'ς') →
        lowercaseAfter before s = s.map lowerOne := by
    intro s
    induction s with
    | nil => exact fun _ _ => rfl
    | cons c s ih =>
      intro before h
      rw [lowercaseAfter] at h ⊢
      have hrest := ih (c :: before) fun d hd => h d (List.mem_append_right _ hd)
      have hhere := fun d hd => h d (List.mem_append_left _ hd)
      by_cases hsigma : (c == 'Σ') = true
      · rw [if_pos hsigma] at hhere
        split at hhere
        · exact absurd rfl (hhere 'ς' (by simp)).2.2
        · exact absurd rfl (hhere 'σ' (by simp)).2.1
      · rw [if_neg hsigma] at hhere ⊢
        have hdot : c ≠ 'İ' := by
          rintro rfl
          exact absurd rfl (hhere '\u0307' (by decide)).1
        rw [lowercaseChar_eq hdot, hrest]
        rfl
  exact hafter s [] h

end Soql.Text

namespace Soql.Token

open Text

theorem toNat_toLower {c : Char} (h : 65 ≤ c.toNat ∧ c.toNat ≤ 90) :
    c.toLower.toNat = c.toNat + 32 := by
  have hupper : c.val ≥ 'A'.val ∧ c.val ≤ 'Z'.val := by
    rw [ge_iff_le, UInt32.le_iff_toNat_le, UInt32.le_iff_toNat_le]
    exact h
  delta Char.toLower
  rw [dif_pos hupper]
  change (c.val + ('a'.val - 'A'.val)).toNat = c.val.toNat + 32
  rw [UInt32.toNat_add, Nat.mod_eq_of_lt]
  · rfl
  · have : c.val.toNat ≤ 90 := h.2
    have : ('a'.val - 'A'.val).toNat = 32 := by decide
    omega

theorem toLower_toLower (c : Char) : c.toLower.toLower = c.toLower := by
  by_cases h : 65 ≤ c.toNat ∧ c.toNat ≤ 90
  · refine toLower_of_not_upper ?_
    rw [toNat_toLower h]
    omega
  · rw [toLower_of_not_upper h, toLower_of_not_upper h]

/-- Letter case does not decide whether a character belongs to a word. -/
theorem isWordPart_toLower {c : Char} : isWordPart c.toLower = isWordPart c := by
  by_cases h : 65 ≤ c.toNat ∧ c.toNat ≤ 90
  · rw [Bool.eq_iff_iff, isWordPart_iff, isWordPart_iff, toNat_toLower h]
    omega
  · rw [toLower_of_not_upper h]

theorem isWordStart_toLower {c : Char} : isWordStart c.toLower = isWordStart c := by
  by_cases h : 65 ≤ c.toNat ∧ c.toNat ≤ 90
  · rw [Bool.eq_iff_iff, isWordStart_iff, isWordStart_iff, toNat_toLower h]
    omega
  · rw [toLower_of_not_upper h]

end Soql.Token

namespace Soql.Text

/-- Blocks of code points that all blanks lie in. -/
def blankBlocks : List (Nat × Nat) :=
  [(0x09, 0x20), (0x80, 0xBF), (0x1680, 0x1680), (0x2000, 0x205F), (0x3000, 0x3000)]

/-- A character outside the blocks is no blank, without a look at the single blanks. -/
theorem not_isBlank_of_blocks {c : Char}
    (h : ∀ block ∈ blankBlocks, c.toNat < block.1 ∨ block.2 < c.toNat) : isBlank c = false := by
  simp only [blankBlocks, List.forall_mem_cons] at h
  rw [Bool.eq_false_iff]
  simp only [isBlank, ne_eq, Bool.or_eq_true, Bool.and_eq_true, decide_eq_true_eq, beq_iff_eq]
  omega

/-- No blank is the upper or the lower case of a letter. -/
theorem lowerOne_eq_or_not_isBlank (c : Char) :
    lowerOne c = c ∨ isBlank c = false ∧ isBlank (lowerOne c) = false := by
  by_cases hc : c.toNat < 128
  · rw [lowerOne_of_lt hc]
    by_cases hupper : 65 ≤ c.toNat ∧ c.toNat ≤ 90
    · have hlower := Token.toNat_toLower hupper
      refine .inr ⟨not_isBlank_of_blocks ?_, not_isBlank_of_blocks ?_⟩ <;>
        (simp only [blankBlocks, List.forall_mem_cons, List.not_mem_nil, false_implies,
          implies_true, and_true]
         omega)
    · exact .inl (Token.toLower_of_not_upper hupper)
  · have hruns : ∀ run ∈ caseRuns, ∀ block ∈ blankBlocks,
        (run.last < block.1 ∨ block.2 < run.first) ∧
          ((run.last : Int) + run.distance < block.1 ∨
            block.2 < (run.first : Int) + run.distance) := by
      decide +kernel
    rcases lowerOne_cases (by omega : 128 ≤ c.toNat) with hsame | ⟨run, hrun, hfirst, hlast, hlower⟩
    · exact .inl hsame
    · refine .inr ⟨not_isBlank_of_blocks fun block hblock => ?_,
        not_isBlank_of_blocks fun block hblock => ?_⟩ <;>
          have := hruns run hrun block hblock <;> omega

/-- Lower-casing neither makes a blank nor loses one. -/
theorem isBlank_lowerOne (c : Char) : isBlank (lowerOne c) = isBlank c := by
  rcases lowerOne_eq_or_not_isBlank c with hsame | ⟨hupper, hlower⟩
  · rw [hsame]
  · rw [hupper, hlower]

theorem lowerOne_of_isBlank {c : Char} (h : isBlank c = true) : lowerOne c = c := by
  rcases lowerOne_eq_or_not_isBlank c with hsame | ⟨hupper, -⟩
  · exact hsame
  · rw [h] at hupper
    cases hupper

/-- Digits are the lower case of digits only. -/
theorem isDigit_lowerOne (c : Char) : (lowerOne c).isDigit = c.isDigit := by
  rw [Bool.eq_iff_iff, Token.isDigit_iff, Token.isDigit_iff]
  by_cases hc : c.toNat < 128
  · rw [lowerOne_of_lt hc]
    by_cases hupper : 65 ≤ c.toNat ∧ c.toNat ≤ 90
    · rw [Token.toNat_toLower hupper]
      omega
    · rw [Token.toLower_of_not_upper hupper]
  · by_cases hlower : (lowerOne c).toNat < 128
    · rw [eq_kelvin_of_lowerOne (by omega) hlower]
      decide
    · omega

end Soql.Text
