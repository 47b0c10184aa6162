import Soql.Proofs.Token.FoldCase
import Soql.Validation.Value

/-!
# Literals do not depend on letter case

What a value is (null, a boolean, a number, a record id, a bind variable, a date, a quoted text)
is the same for its lower case. Relative dates are looked up in full lower case, and the letters of
a point in time come in both forms.
-/

namespace Soql

open Text

namespace Literal

@[simp] theorem isNull_foldCase (s : Text) : isNull (foldCase s) = isNull s :=
  eqIgnoreCase_foldCase_left s _

@[simp] theorem isBoolean_foldCase (s : Text) : isBoolean (foldCase s) = isBoolean s := by
  rw [isBoolean, eqIgnoreCase_foldCase_left, eqIgnoreCase_foldCase_left, isBoolean]

@[simp] theorem isRecordId_foldCase (s : Text) : isRecordId (foldCase s) = isRecordId s := by
  rw [isRecordId, length_foldCase, all_foldCase isAlphanum_toLower, isRecordId]

/-- What a bind variable may be made of is the same in either case. -/
@[simp] theorem isBindVariable_foldCase (s : Text) :
    isBindVariable (foldCase s) = isBindVariable s := by
  have hname (c : Char) : (isAlphanumeric c.toLower || c.toLower == '_' || c.toLower == '.') =
      (isAlphanumeric c || c == '_' || c == '.') :=
    apply_toLower (fun c => isAlphanumeric c || c == '_' || c == '.') (by decide) c
  cases s with
  | nil => rfl
  | cons c name =>
    by_cases hc : c = ':'
    · subst hc
      change isBindVariable (':' :: foldCase name) = _
      rw [isBindVariable, isEmpty_foldCase,
        all_foldCase (p := fun c => isAlphanumeric c || c == '_' || c == '.') hname,
        isBindVariable]
    · have hlower : c.toLower ≠ ':' := by rwa [Ne, toLower_eq_iff (by decide)]
      simp [isBindVariable, hc, hlower]

@[simp] theorem isNumeric_foldCase (s : Text) : isNumeric (foldCase s) = isNumeric s := by
  have hpoint (c : Char) : (c.toLower == '.') = (c == '.') :=
    apply_toLower (· == '.') (by decide) c
  have hsign : ((foldCase s).head? == some '-' || (foldCase s).head? == some '+') =
      (s.head? == some '-' || s.head? == some '+') := by
    cases s with
    | nil => rfl
    | cons c s => exact apply_toLower (fun c => some c == some '-' || some c == some '+') (by decide) c
  rw [isNumeric, hsign, drop_foldCase, ← apply_ite foldCase, cutAt_foldCase hpoint, isNumeric]
  cases cutAt (· == '.') _ with
  | none => exact isDigits_foldCase _
  | some parts => simp

/-- Quotes are found where they were. -/
@[simp] theorem inside?_foldCase (s : Text) : inside? (foldCase s) = (inside? s).map foldCase := by
  cases s with
  | nil => rfl
  | cons quote rest =>
    have hquote : (quote.toLower == '\'' || quote.toLower == '"') =
        (quote == '\'' || quote == '"') :=
      apply_toLower (fun c => c == '\'' || c == '"') (by decide) quote
    rw [foldCase_cons, inside?, hquote, inside?]
    by_cases h : (quote == '\'' || quote == '"') = true
    · have halpha : quote.isAlpha = false := by
        rcases Bool.or_eq_true_iff.1 h with h | h <;> rw [beq_iff_eq.1 h] <;> decide
      have hself : quote.toLower = quote := (toLower_eq_iff halpha).2 rfl
      have hlast : ((foldCase rest).getLast? == some quote.toLower) =
          (rest.getLast? == some quote) := by
        rw [foldCase, List.getLast?_map, hself]
        cases rest.getLast? with
        | none => rfl
        | some c => rw [Bool.eq_iff_iff]; simp [toLower_eq_iff halpha]
      rw [h, Bool.true_and, Bool.true_and, hlast]
      split <;> simp [foldCase]
    · rw [Bool.not_eq_true] at h
      simp [h]

@[simp] theorem isQuoted_foldCase (s : Text) : isQuoted (foldCase s) = isQuoted s := by
  rw [isQuoted, inside?_foldCase, Option.isSome_map, isQuoted]

@[simp] theorem trimQuotes_foldCase (s : Text) : trimQuotes (foldCase s) = foldCase (trimQuotes s) := by
  rw [trimQuotes, inside?_foldCase, trimQuotes]
  cases inside? s <;> rfl

end Literal

namespace Date

/-- The recogniser of relative dates lower-cases first. -/
@[simp] theorem isLiteral_foldCase (s : Text) : isLiteral (foldCase s) = isLiteral s := by
  rw [isLiteral, trim_foldCase, lowercase_foldCase, isLiteral]

/-- What accepts no letters does not see letter case. -/
theorem apply_foldCase_of_letterless {p : Text → Bool}
    (hp : ∀ s, p s = true → ∀ c ∈ s, c.isAlpha = false) (s : Text) : p (foldCase s) = p s := by
  have hself (h : ∀ c ∈ s, c.toLower = c) : foldCase s = s :=
    (List.map_congr_left h).trans (List.map_id s)
  rw [Bool.eq_iff_iff]
  constructor
  · intro h
    have hletter := hp _ h
    rwa [hself fun c hc =>
      ((toLower_eq_iff (hletter _ (List.mem_map_of_mem hc))).1 rfl).symm] at h
  · intro h
    rwa [hself fun c hc => (toLower_eq_iff (hp _ h c hc)).2 rfl]

theorem isAlpha_of_isDigit {c : Char} (h : c.isDigit = true) : c.isAlpha = false := by
  have := Token.isWordStart_of_isDigit h
  rw [Token.isWordStart, Bool.or_eq_false_iff] at this
  exact this.1

/-- A date has digits and hyphens only. -/
@[simp] theorem isIsoDate_foldCase (s : Text) : isIsoDate (foldCase s) = isIsoDate s := by
  refine apply_foldCase_of_letterless (fun s h c hc => ?_) s
  unfold isIsoDate at h
  split at h
  · simp only [List.all_cons, List.all_nil, Bool.and_eq_true] at h
    obtain ⟨h₁, h₂, h₃, h₄, h₅, h₆, h₇, h₈, -⟩ := h
    simp only [List.mem_cons, List.not_mem_nil, or_false] at hc
    rcases hc with rfl | rfl | rfl | rfl | rfl | rfl | rfl | rfl | rfl | rfl <;>
      first | exact isAlpha_of_isDigit ‹_› | decide
  · cases h

theorem toLower_colon (c : Char) : c.toLower = ':' ↔ c = ':' :=
  toLower_eq_iff (by decide)

theorem afterClock?_foldCase (s : Text) :
    afterClock? (foldCase s) = (afterClock? s).map foldCase := by
  rcases s with _ | ⟨h₁, _ | ⟨h₂, _ | ⟨c, _ | ⟨m₁, _ | ⟨m₂, _ | ⟨d, _ | ⟨s₁, _ | ⟨s₂, rest⟩⟩⟩⟩⟩⟩⟩⟩
  case cons.cons.cons.cons.cons.cons.cons.cons =>
    by_cases hc : c = ':'
    · by_cases hd : d = ':'
      · subst hc hd
        have hdigits := all_foldCase isDigit_toLower [h₁, h₂, m₁, m₂, s₁, s₂]
        change (if (foldCase [h₁, h₂, m₁, m₂, s₁, s₂]).all Char.isDigit then some (foldCase rest)
          else none) = _
        rw [hdigits, afterClock?, apply_ite (Option.map foldCase)]
        rfl
      · simp [afterClock?, hd, toLower_colon]
    · simp [afterClock?, hc, toLower_colon]
  all_goals simp [afterClock?]

theorem afterFraction?_foldCase (s : Text) :
    afterFraction? (foldCase s) = (afterFraction? s).map foldCase := by
  cases s with
  | nil => rfl
  | cons c s =>
    by_cases hc : c = '.'
    · subst hc
      change afterFraction? ('.' :: foldCase s) = _
      rw [afterFraction?, takeWhile_foldCase isDigit_toLower, dropWhile_foldCase isDigit_toLower,
        afterFraction?]
      cases s.takeWhile Char.isDigit <;> rfl
    · have hlower : c.toLower ≠ '.' := by rwa [Ne, toLower_eq_iff (by decide)]
      simp [afterFraction?, hc, hlower]

/-- The only letter of a zone may be small or capital. -/
theorem isZone_foldCase (s : Text) : isZone (foldCase s) = isZone s := by
  have hz (c : Char) : (isZone [c.toLower]) = isZone [c] :=
    apply_toLower (fun c => isZone [c]) (by decide) c
  have hsign (c : Char) : (c.toLower == '+' || c.toLower == '-') = (c == '+' || c == '-') :=
    apply_toLower (fun c => c == '+' || c == '-') (by decide) c
  rcases s with _ | ⟨z, _ | ⟨h₁, _ | ⟨h₂, _ | ⟨c, _ | ⟨m₁, _ | ⟨m₂, _ | ⟨e, rest⟩⟩⟩⟩⟩⟩⟩
  case cons.nil => exact hz z
  case cons.cons.cons.cons.cons.cons.nil =>
    by_cases hc : c = ':'
    · subst hc
      have hcolon : ':'.toLower = ':' := by decide
      simp only [foldCase_cons, foldCase_nil, hcolon, isZone, List.all_cons, isDigit_toLower, hsign]
    · simp [isZone, hc, toLower_colon]
  all_goals simp [isZone]

/-- The letters of a date with time may be small or capital. -/
@[simp] theorem isIsoDateTime_foldCase (s : Text) :
    isIsoDateTime (foldCase s) = isIsoDateTime s := by
  have ht (c : Char) : (c.toLower == 'T' || c.toLower == 't') = (c == 'T' || c == 't') :=
    apply_toLower (fun c => c == 'T' || c == 't') (by decide) c
  rw [isIsoDateTime, cutAt_foldCase (p := fun c => c == 'T' || c == 't') ht, isIsoDateTime]
  cases cutAt (fun c => c == 'T' || c == 't') s with
  | none => rfl
  | some parts =>
    simp only [Option.map_some, Prod.map, isIsoDate_foldCase, afterClock?_foldCase]
    cases afterClock? parts.2 with
    | none => rfl
    | some rest =>
      simp only [Option.map_some, Option.bind_some, afterFraction?_foldCase]
      cases afterFraction? rest with
      | none => rfl
      | some zone => simp only [Option.map_some, Option.any_some, isZone_foldCase]

end Date

end Soql
