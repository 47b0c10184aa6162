/-!
# Shortest decimals of binary numbers

A number with a significand of 53 bits stands for an interval of reals, those that round to it.
`Binary.shortest?` is the decimal with the fewest digits in that interval, and of several the one
nearest to the number itself, the larger one on a tie. All arithmetic is on natural numbers:
multiples of a power of ten are compared with multiples of a power of two after both are brought
to a common scale. The range of exponents has no bound here.
-/

namespace Soql

/-- The number `coefficient * 10 ^ exponent`. -/
structure Decimal where
  coefficient : Nat
  exponent : Int
  deriving DecidableEq

/-- The number `significand * 2 ^ exponent`. -/
structure Binary where
  significand : Nat
  exponent : Int
  deriving DecidableEq

/-- The weight of `10 ^ ten` on the common scale of `10 ^ ten` and `2 ^ two`. -/
def tensWeight (ten two : Int) : Nat :=
  Nat.pow 10 ten.toNat * Nat.pow 2 (-two).toNat

/-- The weight of `2 ^ two` on the common scale of `10 ^ ten` and `2 ^ two`. -/
def twosWeight (ten two : Int) : Nat :=
  Nat.pow 2 two.toNat * Nat.pow 10 (-ten).toNat

/-- Significands are below this number, and not below its half. -/
def significandBound : Nat :=
  Nat.pow 2 53

/-- The quotient rounded to the nearest whole number, halves to the even one. -/
def roundedQuotient (num den : Nat) : Nat :=
  let q := num / den
  let r := num % den
  if den < 2 * r || (2 * r == den && q % 2 == 1) then q + 1 else q

/-- The binary number of 53 bits nearest to a positive decimal, on a tie the one with an even
significand. -/
def Decimal.nearest (d : Decimal) : Binary :=
  let num := d.coefficient * Nat.pow 10 d.exponent.toNat
  let den := Nat.pow 10 (-d.exponent).toNat
  let low : Int := num.log2 - den.log2 - 53
  let scaledNum (e : Int) := num * Nat.pow 2 (-e).toNat
  let scaledDen (e : Int) := den * Nat.pow 2 e.toNat
  let exponent := if scaledNum low < significandBound * scaledDen low then low else low + 1
  let significand := roundedQuotient (scaledNum exponent) (scaledDen exponent)
  if significand = significandBound then ⟨significandBound / 2, exponent + 1⟩
  else ⟨significand, exponent⟩

namespace Binary

/-- The decimal `c * 10 ^ ten` rounds to `b`. The interval reaches half a unit to both sides, or a
quarter down from a power of two; its ends belong to it when the significand is even. -/
def holds (b : Binary) (c : Nat) (ten : Int) : Bool :=
  let two := b.exponent - 2
  let value := c * tensWeight ten two
  let below := if 2 * b.significand == significandBound then 1 else 2
  let low := (4 * b.significand - below) * twosWeight ten two
  let high := (4 * b.significand + 2) * twosWeight ten two
  if b.significand % 2 == 0 then low ≤ value && value ≤ high
  else low < value && value < high

/-- The multiple of `10 ^ ten` next to `b`, above or below, that rounds to `b`. -/
def nearestOnGrid? (b : Binary) (ten : Int) : Option Nat :=
  let two := b.exponent - 2
  let value := 4 * b.significand * twosWeight ten two
  let unit := tensWeight ten two
  let c := value / unit
  match b.holds c ten, b.holds (c + 1) ten with
  | true, true => if 2 * value < (2 * c + 1) * unit then some c else some (c + 1)
  | true, false => some c
  | false, true => some (c + 1)
  | false, false => none

/-- The first of the grids `10 ^ ten`, `10 ^ (ten - 1)`, ... with a decimal that rounds to `b`. -/
def firstOnGrids? (b : Binary) (ten : Int) : Nat → Option Decimal
  | 0 => none
  | n + 1 =>
    match b.nearestOnGrid? ten with
    | some c => some ⟨c, ten⟩
    | none => b.firstOnGrids? (ten - 1) n

/-- The decimal with the fewest digits that rounds to `b`. The search starts at a power of ten
above `b`; seventeen digits always suffice. -/
def shortest? (b : Binary) : Option Decimal :=
  b.firstOnGrids? ((b.exponent + 53) * 30103 / 100000 + 1) 20

end Binary

end Soql
