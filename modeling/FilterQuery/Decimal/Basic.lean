/-
FilterQuery.Decimal.Basic — exact decimal numbers of bounded size.

A decimal is an integer coefficient divided by a power of ten. The
coefficient has at most 96 bits beside its sign and the power, called the
scale, is at most 28; both bounds are part of the type. The scale is kept
as it was written, so 1.50 and 1.5 are two decimals that denote one
number; `sameNumber` compares the numbers, and `normalize` picks the one
with the least scale. Since the sign belongs to the coefficient, there is
one zero and it has no sign.

* `ofNumeral?` reads a numeral. It is exact as long as the digits fit;
  digits of the fraction beyond that are rounded off, half up, by the
  first digit that is dropped.
* `text` writes a decimal with exactly `scale` digits after the point.
-/
import FilterQuery.Decimal.Numeral

namespace FilterQuery

/-- The largest coefficient, 2^96 - 1. -/
def maxCoefficient : Nat := 79228162514264337593543950335

/-- The largest scale. -/
def maxScale : Nat := 28

/-- The number `coefficient / 10 ^ scale`. -/
structure Decimal where
  coefficient : Int
  scale : Nat
  coefficient_le : coefficient.natAbs ≤ maxCoefficient
  scale_le : scale ≤ maxScale
deriving DecidableEq

namespace Decimal

instance : Repr Decimal where
  reprPrec d _ := repr d.coefficient ++ " / 10 ^ " ++ repr d.scale

/-- The decimal with the given parts, if they are within bounds. -/
def make? (coefficient : Int) (scale : Nat) : Option Decimal :=
  if h : coefficient.natAbs ≤ maxCoefficient ∧ scale ≤ maxScale then
    some ⟨coefficient, scale, h.1, h.2⟩
  else none

/-- The number a decimal denotes. -/
def toRat (d : Decimal) : Rat := (d.coefficient : Rat) / (pow10 d.scale : Nat)

/-- Whether two decimals denote the same number. -/
def sameNumber (a b : Decimal) : Bool :=
  a.coefficient * (pow10 b.scale : Nat) == b.coefficient * (pow10 a.scale : Nat)

/-- A whole 64-bit number as a decimal. -/
def ofInt64 (n : Int64) : Decimal where
  coefficient := n.toInt
  scale := 0
  coefficient_le := by
    have h1 := n.le_toInt
    have h2 := n.toInt_lt
    unfold maxCoefficient
    omega
  scale_le := Nat.zero_le _

/-! ## Reading -/

/-- The coefficient and scale after rounding at a dropped digit. A digit
of five or more adds one to the coefficient; when that passes the bound,
one place is given up, and without a place to give up there is no answer. -/
def roundOff (coefficient scale digit : Nat) : Option (Nat × Nat) :=
  if digit < 5 then some (coefficient, scale)
  else if coefficient + 1 ≤ maxCoefficient then some (coefficient + 1, scale)
  else if scale = 0 then none
  else some ((coefficient + 5) / 10, scale - 1)

/-- Take the digits of a fraction one by one onto a coefficient, as long
as both bounds allow the next one. -/
def takeFraction (coefficient scale : Nat) : List Char → Option (Nat × Nat)
  | [] => some (coefficient, scale)
  | c :: cs =>
    let next := coefficient * 10 + digitValue c
    if scale < maxScale ∧ next ≤ maxCoefficient then takeFraction next (scale + 1) cs
    else roundOff coefficient scale (digitValue c)

/-- The decimal that a numeral writes, if its whole part is within bounds. -/
def ofNumeral? (n : Numeral) : Option Decimal :=
  let whole := natOfDigits n.whole
  if whole ≤ maxCoefficient then
    match takeFraction whole 0 n.fraction with
    | some (coefficient, scale) =>
      make? (if n.negative then -(coefficient : Int) else coefficient) scale
    | none => none
  else none

/-- The decimal that a text writes as a numeral. -/
def ofText? (s : String) : Option Decimal := (Numeral.ofText? s).bind ofNumeral?

/-! ## Normal form -/

/-- Drop the zeros at the end of a fraction. -/
def strip (coefficient : Int) : Nat → Int × Nat
  | 0 => (coefficient, 0)
  | scale + 1 =>
    if coefficient % 10 = 0 then strip (coefficient / 10) scale
    else (coefficient, scale + 1)

theorem natAbs_strip_le (c : Int) (s : Nat) : (strip c s).1.natAbs ≤ c.natAbs := by
  induction s generalizing c with
  | zero => simp [strip]
  | succ s ih =>
    unfold strip
    split
    · have := ih (c / 10)
      omega
    · simp

theorem scale_strip_le (c : Int) (s : Nat) : (strip c s).2 ≤ s := by
  induction s generalizing c with
  | zero => simp [strip]
  | succ s ih =>
    unfold strip
    split
    · have := ih (c / 10)
      omega
    · simp

/-- The decimal of least scale that denotes the same number. -/
def normalize (d : Decimal) : Decimal where
  coefficient := (strip d.coefficient d.scale).1
  scale := (strip d.coefficient d.scale).2
  coefficient_le := Nat.le_trans (natAbs_strip_le _ _) d.coefficient_le
  scale_le := Nat.le_trans (scale_strip_le _ _) d.scale_le

/-- The whole number a decimal denotes, if it denotes one. -/
def whole? (d : Decimal) : Option Int :=
  if d.coefficient % (pow10 d.scale : Nat) = 0 then
    some (d.coefficient / (pow10 d.scale : Nat))
  else none

/-! ## Writing -/

/-- The numeral of a decimal: as many digits after the point as its scale. -/
def toNumeral (d : Decimal) : Numeral :=
  let n := d.coefficient.natAbs
  { negative := d.coefficient < 0
    whole := digitsOf (n / pow10 d.scale)
    fraction := if d.scale = 0 then [] else paddedDigits d.scale (n % pow10 d.scale) }

/-- The text of a decimal. -/
def text (d : Decimal) : String := String.ofList d.toNumeral.source

end Decimal

end FilterQuery
