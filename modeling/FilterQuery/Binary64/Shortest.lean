/-
FilterQuery.Binary64.Shortest — the fewest decimal digits that name a
binary number.

Every rational closer to a binary number than to its neighbours rounds to
it; together they form an interval around it, whose ends belong to it if
the significand is even. Among the decimals with `n` significant digits
the interval can only be hit if it is hit by one of the two that enclose
the number. `shortest` takes the least `n` for which that happens, and of
two hits the nearer one. Seventeen digits always hit.

Whether an exact tie between the two goes down, up or to the even digit
is left to the caller, because written forms of numbers differ in it.
-/
import FilterQuery.Binary64.Basic
import FilterQuery.Decimal.Numeral

namespace FilterQuery

namespace Binary64

/-- Which of two equally near decimals is taken. -/
inductive Tie where
  /-- The one further from zero. -/
  | away
  /-- The one whose last digit is even. -/
  | even
deriving DecidableEq, Repr

/-- The decimal number `digits * 10 ^ exponent`. -/
structure Digits where
  digits : Nat
  exponent : Int
deriving DecidableEq, Repr

namespace Digits

/-- The number denoted. -/
def toRat (d : Digits) : Rat := (d.digits : Rat) * (10 : Rat) ^ d.exponent

/-- The power of ten of the first digit. -/
def magnitude (d : Digits) : Int := d.exponent + (digitsOf d.digits).length - 1

/-- The number written with no exponent. A fraction is written only where
there is one. -/
def toNumeral (negative : Bool) (d : Digits) : Numeral :=
  let ds := digitsOf d.digits
  if 0 ≤ d.exponent then ⟨negative, ds ++ List.replicate d.exponent.toNat '0', []⟩
  else
    let places := (-d.exponent).toNat
    if places < ds.length then
      ⟨negative, ds.take (ds.length - places), ds.drop (ds.length - places)⟩
    else ⟨negative, ['0'], List.replicate (places - ds.length) '0' ++ ds⟩

end Digits

/-- The power of ten of the first digit of a positive rational. -/
def magnitudeOf (q : Rat) : Int :=
  if 1 ≤ q then (digitsOf q.floor.toNat).length - 1
  else -((digitsOf ((1 / q).ceil.toNat - 1)).length : Int)

/-- Whether a rational rounds to the positive number `x`. Below a power of
two the neighbours are half as far apart. -/
def inInterval (x : Binary64) (q : Rat) : Bool :=
  let ulp := (2 : Rat) ^ x.exponent
  let low := x.toRat - (if x.significand = leastSignificand then ulp / 4 else ulp / 2)
  let high := x.toRat + ulp / 2
  if x.significand % 2 = 0 then low ≤ q && q ≤ high else low < q && q < high

/-- The decimal with last place `exponent` that names the positive number
`x`, if one of the two that enclose `x` does. -/
def hit? (tie : Tie) (x : Binary64) (exponent : Int) : Option Digits :=
  let v := x.toRat
  let below : Digits := ⟨(v / (10 : Rat) ^ exponent).floor.toNat, exponent⟩
  let above : Digits := ⟨below.digits + 1, exponent⟩
  match inInterval x below.toRat, inInterval x above.toRat with
  | false, false => none
  | true, false => some below
  | false, true => some above
  | true, true =>
    if v - below.toRat < above.toRat - v then some below
    else if above.toRat - v < v - below.toRat then some above
    else
      match tie with
      | .away => some above
      | .even => if below.digits % 2 = 0 then some below else some above

/-- The fewest digits that name a positive number. -/
def shortestPositive (tie : Tie) (x : Binary64) : Digits :=
  let top := magnitudeOf x.toRat
  match (List.range 17).findSome? fun (n : Nat) => hit? tie x (top - n) with
  | some d => if d.digits % 10 = 0 then ⟨d.digits / 10, d.exponent + 1⟩ else d
  | none => ⟨0, 0⟩

/-- The fewest digits that name a number without its sign. -/
def shortest (tie : Tie) (x : Binary64) : Digits :=
  if x.significand = 0 then ⟨0, 0⟩
  else shortestPositive tie (if x.significand < 0 then x.neg else x)

end Binary64

end FilterQuery
