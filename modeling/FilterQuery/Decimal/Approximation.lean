/-
FilterQuery.Decimal.Approximation — a decimal as a binary64 number.

`approximate` is the rounded binary number that stands for a decimal. It
goes through the whole part and the fraction separately and through a
last correction to the decimal's own number of places, so it can miss
the nearest binary number; what it gives is only used if it leads back.

`exactBinary?` is that test: the approximation is written with the fewest
digits, read as a decimal again, and accepted if the decimal read denotes
the same number as the one it came from.
-/
import FilterQuery.Decimal.Basic
import FilterQuery.Binary64.Shortest

namespace FilterQuery

namespace Decimal

/-- The binary number that stands for `coefficient / 10 ^ scale`. -/
def approximateParts (coefficient scale : Nat) : Binary64 :=
  if scale = 0 then .ofInt coefficient
  else
    let unit := pow10 scale
    let whole := Binary64.ofInt (coefficient / unit : Nat)
    let fraction := (Binary64.ofInt (coefficient % unit : Nat)).div (.ofInt unit)
    if fraction.significand = 0 then whole
    else
      let power := Binary64.tenTo scale
      let shifted := (whole.add fraction).mul power
      (Binary64.ofInt (Binary64.roundUp shifted.toRat)).div power

/-- The binary number that stands for a decimal. -/
def approximate (d : Decimal) : Binary64 :=
  let x := approximateParts d.coefficient.natAbs d.scale
  if d.coefficient < 0 then x.neg else x

end Decimal

namespace Binary64

/-- The plain written form of a number, with no exponent. -/
def toNumeral (x : Binary64) : Numeral :=
  (shortest .away x).toNumeral (x.significand < 0)

end Binary64

namespace Decimal

/-- The binary number that stands for a decimal, if its plain written form
reads back as the same number. -/
def exactBinary? (d : Decimal) : Option Binary64 :=
  match ofNumeral? d.approximate.toNumeral with
  | some back => if back.sameNumber d then some d.approximate else none
  | none => none

end Decimal

end FilterQuery
