import Soql.Proofs.Token.Single
import Soql.Proofs.Token.Join
import Soql.Query.Model

/-!
# Counts

A number below the bound of counts is read back from its digits.
-/

namespace Soql

open Token

theorem Text.isDigits_ofNat (n : Nat) : Text.isDigits (Text.ofNat n) = true := by
  rw [Text.isDigits_iff]
  exact ⟨Nat.toDigits_ne_nil, fun c hc => Nat.isDigit_of_mem_toDigits (by decide) (by decide) hc⟩

/-- The digits of a count have its value. -/
theorem Text.digitsValue_ofNat (n : Nat) : Text.digitsValue (Text.ofNat n) = n := by
  have := Nat.ofDigitChars_ten_toDigits (n := n)
  rwa [Nat.ofDigitChars_eq_foldl] at this

/-- A count below the bound is read back. -/
theorem Query.count?_ofNat {n : Nat} (h : n < Query.countBound) :
    Query.count? (Text.ofNat n) = some n := by
  rw [Query.count?, Text.isDigits_ofNat, Text.digitsValue_ofNat]
  simp [h]

theorem tokenize_ofNat (n : Nat) : tokenize (Text.ofNat n) = [⟨[], .number, Text.ofNat n⟩] :=
  tokenize_digits (Text.isDigits_ofNat n)

theorem kindsOf_ofNat (n : Nat) : kindsOf (Text.ofNat n) = [.number] := by
  rw [kindsOf, tokenize_ofNat]
  rfl

theorem piece_ofNat (n : Nat) : Piece (Text.ofNat n) :=
  .of_tokenize (tokenize_ofNat n) (by simp) (by simp)

end Soql
