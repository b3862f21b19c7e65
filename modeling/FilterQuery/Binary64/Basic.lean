/-
FilterQuery.Binary64.Basic — binary numbers of 53 significant bits.

JSON readers keep numbers in the binary64 format, so a decimal may only
be handed on as a JSON number if it survives that format. This module is
the part of binary64 arithmetic that the question needs, on exact
rationals: a result is computed as a rational and then rounded once, by
`nearest`, to 53 significant bits, a half going to the even neighbour.

The exponent is not bounded here. Where decimals are concerned, numbers
lie between 10^-28 and 10^57, far inside the range of the format, so that
neither overflow nor subnormal numbers can come up; and a number read from
a text is beyond the range exactly if, rounded like this, it reaches
2^1024.
-/

namespace FilterQuery

/-- The number `significand * 2 ^ exponent`. -/
structure Binary64 where
  significand : Int
  exponent : Int
deriving DecidableEq, Repr

namespace Binary64

/-- The number denoted. -/
def toRat (x : Binary64) : Rat := (x.significand : Rat) * (2 : Rat) ^ x.exponent

/-- The nearest whole number, a half going to the even one. -/
def roundEven (q : Rat) : Int :=
  let low := q.floor
  let part := q - low
  if part < 1 / 2 then low
  else if 1 / 2 < part then low + 1
  else if low % 2 = 0 then low
  else low + 1

/-- The nearest whole number, a half going up. -/
def roundUp (q : Rat) : Int := (q + 1 / 2).floor

/-- 2^52, the least significand of a normal number. -/
def leastSignificand : Int := 4503599627370496

/-- The exponent at which a positive rational has a significand of 53 bits. -/
def exponentOf (q : Rat) : Int :=
  let guess : Int := (q.num.natAbs.log2 : Int) - q.den.log2 - 53
  if q / (2 : Rat) ^ guess < ((2 * leastSignificand : Int) : Rat) then guess else guess + 1

/-- The nearest number of 53 significant bits to a positive rational. -/
def nearestPositive (q : Rat) : Binary64 :=
  let e := exponentOf q
  let m := roundEven (q / (2 : Rat) ^ e)
  if m = 2 * leastSignificand then ⟨leastSignificand, e + 1⟩ else ⟨m, e⟩

/-- The same number with the other sign. -/
def neg (x : Binary64) : Binary64 := ⟨-x.significand, x.exponent⟩

/-- The nearest number of 53 significant bits to a rational. -/
def nearest (q : Rat) : Binary64 :=
  if q = 0 then ⟨0, 0⟩
  else if 0 < q then nearestPositive q
  else neg (nearestPositive (-q))

/-- The rounded sum. -/
def add (x y : Binary64) : Binary64 := nearest (x.toRat + y.toRat)

/-- The rounded product. -/
def mul (x y : Binary64) : Binary64 := nearest (x.toRat * y.toRat)

/-- The rounded quotient. -/
def div (x y : Binary64) : Binary64 := nearest (x.toRat / y.toRat)

/-- A whole number, rounded to 53 significant bits. -/
def ofInt (n : Int) : Binary64 := nearest n

/-- Multiply `result` by `base` to the power `n` by repeated squaring,
rounding every product. `rounds` bounds the number of squarings. -/
def powFrom (result base : Binary64) (n : Nat) : Nat → Binary64
  | 0 => result
  | rounds + 1 =>
    let result := if n % 2 = 1 then mul result base else result
    if n / 2 = 0 then result else powFrom result (mul base base) (n / 2) rounds

/-- Ten to the power `n`, computed in rounded products. Up to 10^22 it is
exact. -/
def tenTo (n : Nat) : Binary64 := powFrom (ofInt 1) (ofInt 10) n (n.log2 + 1)

end Binary64

end FilterQuery
