import Soql.Decimal.Shortest
import Soql.Text.Basic

/-!
# Canonical numbers

A number is canonical when its text is exactly how its nearest binary number is printed: an
optional minus sign, the whole part without superfluous zeros, and a fraction that does not end in
a zero, with no more digits than are needed to tell the binary number from its neighbours. Only
zero and magnitudes from `10 ^ -6` up to `10 ^ 21` are printed in this form.
-/

namespace Soql

namespace Decimal

/-- The decimal written by the digits of a whole part and of a fraction; zeros at the end of the
whole part go into the exponent. -/
def ofDigits (whole fraction : Text) : Decimal :=
  let digits := whole ++ fraction
  let zeros := (digits.reverse.takeWhile (· == '0')).length
  { coefficient := Text.digitsValue (digits.take (digits.length - zeros))
    exponent := zeros - (fraction.length : Int) }

/-- The decimal that a text without sign and without superfluous zeros writes. -/
def ofText? (s : Text) : Option Decimal :=
  let whole := s.takeWhile Char.isDigit
  let rest := s.dropWhile Char.isDigit
  if whole.isEmpty || (whole.head? == some '0' && whole.length != 1) then none
  else
    match rest with
    | [] => some (ofDigits whole [])
    | '.' :: fraction =>
      if Text.isDigits fraction && fraction.getLast? != some '0' then
        some (ofDigits whole fraction)
      else none
    | _ => none

/-- The magnitudes that are printed without an exponent. -/
def isPositional (d : Decimal) : Bool :=
  let num := d.coefficient * Nat.pow 10 d.exponent.toNat
  let den := Nat.pow 10 (-d.exponent).toNat
  den ≤ num * Nat.pow 10 6 && num < den * Nat.pow 10 21

/-- No shorter decimal, and no nearer one of the same length, stands for the same binary number. -/
def isShortest (d : Decimal) : Bool :=
  d.nearest.shortest? == some d

end Decimal

/-- A text is the printed form of a number. -/
def isCanonicalNumber (s : Text) : Bool :=
  s == ['0'] ||
    match Decimal.ofText? (if s.head? == some '-' then s.drop 1 else s) with
    | some d => d.coefficient != 0 && d.isPositional && d.isShortest
    | none => false

example : isCanonicalNumber "-3.5".toList = true := by decide +kernel
example : isCanonicalNumber "0.1".toList = true := by decide +kernel
example : isCanonicalNumber "1.50".toList = false := by decide +kernel
example : isCanonicalNumber "9007199254740993".toList = false := by decide +kernel
example : isCanonicalNumber "1125899906842624.3".toList = true := by decide +kernel
example : isCanonicalNumber "1125899906842624.2".toList = false := by decide +kernel

end Soql
