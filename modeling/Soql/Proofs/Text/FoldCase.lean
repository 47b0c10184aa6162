import Soql.Proofs.Text.Lowercase
import Soql.Text.Alphanumeric
import Soql.Text.Blank

/-!
# Folding the case of a text

Most of what is asked of a character (whether it is a blank, a digit, a numeral, a given symbol)
has the same answer for a capital ASCII letter and for its small form. `apply_toLower` checks this
on the 26 pairs of letters; what is built from such questions by going along a text then commutes
with `Text.foldCase`. Full lower-casing does not see the difference either, although it looks at
the neighbours of a capital sigma: ASCII letters of both cases are letters with case.
-/

namespace Soql.Text

section Characters

/-- What is the same for both forms of each ASCII letter does not see letter case. -/
theorem apply_toLower {β : Type} (p : Char → β)
    (h : ∀ n < 26, p (Char.ofNat (97 + n)) = p (Char.ofNat (65 + n))) (c : Char) :
    p c.toLower = p c := by
  by_cases hc : 65 ≤ c.toNat ∧ c.toNat ≤ 90
  · have hupper : c = Char.ofNat (65 + (c.toNat - 65)) := by
      rw [show 65 + (c.toNat - 65) = c.toNat by omega, Char.ofNat_toNat]
    have hlower : c.toLower = Char.ofNat (97 + (c.toNat - 65)) := by
      rw [show 97 + (c.toNat - 65) = c.toLower.toNat by rw [Token.toNat_toLower hc]; omega,
        Char.ofNat_toNat]
    rw [hlower, h _ (by omega), ← hupper]
  · rw [Token.toLower_of_not_upper hc]

@[simp] theorem isGap_toLower (c : Char) : isGap c.toLower = isGap c :=
  apply_toLower isGap (by decide) c

/-- Blanks are in no case, so trimming and folding commute. -/
@[simp] theorem isBlank_toLower (c : Char) : isBlank c.toLower = isBlank c :=
  apply_toLower isBlank (by decide) c

@[simp] theorem isDigit_toLower (c : Char) : c.toLower.isDigit = c.isDigit :=
  apply_toLower Char.isDigit (by decide) c

@[simp] theorem isAlphanum_toLower (c : Char) : c.toLower.isAlphanum = c.isAlphanum :=
  apply_toLower Char.isAlphanum (by decide) c

/-- The letters and digits beyond ASCII are not touched by the folding. -/
@[simp] theorem isAlphanumeric_toLower (c : Char) :
    isAlphanumeric c.toLower = isAlphanumeric c :=
  apply_toLower isAlphanumeric (by decide) c

/-- What the rule for a final sigma looks at is the same in either case. -/
@[simp] theorem isCased_toLower (c : Char) : isCased c.toLower = isCased c :=
  apply_toLower isCased (by decide +kernel) c

@[simp] theorem isCaseIgnorable_toLower (c : Char) : isCaseIgnorable c.toLower = isCaseIgnorable c :=
  apply_toLower isCaseIgnorable (by decide +kernel) c

/-- A character that has its ASCII case folded lower-cases as before. -/
@[simp] theorem lowercaseChar_toLower (c : Char) : lowercaseChar c.toLower = lowercaseChar c :=
  apply_toLower lowercaseChar (by decide +kernel) c

/-- A character that is no ASCII letter has one form only. -/
theorem toLower_eq_iff {c d : Char} (hd : d.isAlpha = false) : c.toLower = d ↔ c = d := by
  by_cases hc : 65 ≤ c.toNat ∧ c.toNat ≤ 90
  · have hne : ∀ e : Char, (65 ≤ e.toNat ∧ e.toNat ≤ 90) ∨ (97 ≤ e.toNat ∧ e.toNat ≤ 122) → e ≠ d := by
      rintro e he rfl
      rw [Token.isAlpha_iff.2 he] at hd
      cases hd
    refine iff_of_false (hne _ (.inr ?_)) (hne _ (.inl hc))
    rw [Token.toNat_toLower hc]
    omega
  · rw [Token.toLower_of_not_upper hc]

end Characters

section Texts

@[simp] theorem foldCase_nil : foldCase [] = [] := rfl

@[simp] theorem foldCase_cons (c : Char) (s : Text) : foldCase (c :: s) = c.toLower :: foldCase s :=
  rfl

@[simp] theorem foldCase_append (s t : Text) : foldCase (s ++ t) = foldCase s ++ foldCase t :=
  List.map_append

@[simp] theorem foldCase_foldCase (s : Text) : foldCase (foldCase s) = foldCase s := by
  rw [foldCase, foldCase, List.map_map]
  exact List.map_congr_left fun c _ => Token.toLower_toLower c

@[simp] theorem length_foldCase (s : Text) : (foldCase s).length = s.length :=
  List.length_map _

@[simp] theorem isEmpty_foldCase (s : Text) : (foldCase s).isEmpty = s.isEmpty :=
  List.isEmpty_map

/-- A comparison that ignores case does not see whether a side was folded. -/
@[simp] theorem eqIgnoreCase_foldCase_left (s t : Text) :
    eqIgnoreCase (foldCase s) t = eqIgnoreCase s t := by
  rw [eqIgnoreCase, foldCase_foldCase, eqIgnoreCase]

@[simp] theorem eqIgnoreCase_foldCase_right (s t : Text) :
    eqIgnoreCase s (foldCase t) = eqIgnoreCase s t := by
  rw [eqIgnoreCase, foldCase_foldCase, eqIgnoreCase]

theorem take_foldCase (n : Nat) (s : Text) : (foldCase s).take n = foldCase (s.take n) :=
  List.map_take.symm

theorem drop_foldCase (n : Nat) (s : Text) : (foldCase s).drop n = foldCase (s.drop n) :=
  List.map_drop.symm

variable {p : Char → Bool} (hp : ∀ c, p c.toLower = p c)

include hp

theorem all_foldCase (s : Text) : (foldCase s).all p = s.all p := by
  rw [foldCase, List.all_map]
  exact congrArg s.all (funext hp)

/-- What a scan takes is decided by properties that letter case does not change. -/
theorem takeWhile_foldCase (s : Text) : (foldCase s).takeWhile p = foldCase (s.takeWhile p) := by
  rw [foldCase, List.takeWhile_map, show p ∘ Char.toLower = p from funext hp]
  rfl

theorem dropWhile_foldCase (s : Text) : (foldCase s).dropWhile p = foldCase (s.dropWhile p) := by
  rw [foldCase, List.dropWhile_map, show p ∘ Char.toLower = p from funext hp]
  rfl

/-- A text is cut at the same place in either case. -/
theorem cutAt_foldCase (s : Text) :
    cutAt p (foldCase s) = (cutAt p s).map (Prod.map foldCase foldCase) := by
  induction s with
  | nil => rfl
  | cons c s ih =>
    rw [foldCase_cons, cutAt, cutAt, hp, ih]
    cases p c with
    | true => rfl
    | false => simp [Function.comp_def]

end Texts

/-- The blanks at the ends of a text are not letters. -/
@[simp] theorem trim_foldCase (s : Text) : (foldCase s).trim = foldCase s.trim := by
  have hreverse (s : Text) : (foldCase s).reverse = foldCase s.reverse := List.map_reverse.symm
  rw [trim, trimStart, dropWhile_foldCase isBlank_toLower, trimEnd, hreverse,
    dropWhile_foldCase isBlank_toLower, hreverse]
  rfl

/-- A number is a number in any case. -/
@[simp] theorem isDigits_foldCase (s : Text) : isDigits (foldCase s) = isDigits s := by
  rw [isDigits, isEmpty_foldCase, all_foldCase isDigit_toLower, isDigits]

/-- Digits have no case. -/
theorem foldCase_of_isDigits {s : Text} (h : isDigits s = true) : foldCase s = s := by
  rw [isDigits_iff] at h
  refine (List.map_congr_left fun c hc => ?_).trans (List.map_id s)
  have := Token.isDigit_iff.1 (h.2 c hc)
  exact Token.toLower_of_not_upper (by omega)

/-- The characters that the rule for a final sigma passes over have no ASCII case. -/
theorem startsCased_foldCase (s : Text) : startsCased (foldCase s) = startsCased s := by
  rw [startsCased, dropWhile_foldCase isCaseIgnorable_toLower, startsCased]
  cases s.dropWhile isCaseIgnorable with
  | nil => rfl
  | cons c _ => exact isCased_toLower c

/-- Full lower-casing does not see ASCII case. -/
@[simp] theorem lowercase_foldCase (s : Text) : lowercase (foldCase s) = lowercase s := by
  have hafter : ∀ (s before : Text),
      lowercaseAfter (foldCase before) (foldCase s) = lowercaseAfter before s := by
    intro s
    induction s with
    | nil => exact fun _ => rfl
    | cons c s ih =>
      intro before
      have hsigma : (c.toLower == 'Σ') = (c == 'Σ') := by
        rw [Bool.eq_iff_iff, beq_iff_eq, beq_iff_eq, toLower_eq_iff (by decide)]
      rw [foldCase_cons, lowercaseAfter, hsigma, startsCased_foldCase, startsCased_foldCase,
        lowercaseChar_toLower, ← foldCase_cons, ih, lowercaseAfter]
  exact hafter s []

end Soql.Text
