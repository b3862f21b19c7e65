/-
FilterQuery.Text.Character — the three classes of characters that the
query language tells apart: blanks between tokens, the characters of a
name, and the digits of a numeral.

Blanks are those of the Unicode property White_Space, so a no-break
space or an ideographic space separates tokens, and a zero-width space
does not. Names and numerals are ASCII only, by the language's rule: an
accented letter or a full-width digit is never part of either.
-/

namespace FilterQuery

/-- The Unicode property White_Space. -/
def isBlank (c : Char) : Bool :=
  let n := c.toNat
  (9 ≤ n && n ≤ 13) || n == 0x20 || n == 0x85 || n == 0xA0 || n == 0x1680 ||
    (0x2000 ≤ n && n ≤ 0x200A) || n == 0x2028 || n == 0x2029 || n == 0x202F ||
    n == 0x205F || n == 0x3000

/-- A character that can begin a name: an ASCII letter or an underscore. -/
def isNameStart (c : Char) : Bool := c.isAlpha || c == '_'

/-- A character that can continue a name: an ASCII letter, an ASCII digit
or an underscore. -/
def isNameRest (c : Char) : Bool := c.isAlphanum || c == '_'

/-- A name as fields and operators have it: a start character and then
any number of name characters. -/
def isName (s : String) : Bool :=
  match s.toList with
  | [] => false
  | c :: cs => isNameStart c && cs.all isNameRest

/-- The value of an ASCII digit. -/
def digitValue (c : Char) : Nat := c.toNat - '0'.toNat

/-- The number that a run of ASCII digits writes in base ten. -/
def natOfDigits (cs : List Char) : Nat :=
  cs.foldl (fun n c => n * 10 + digitValue c) 0

/-- The digits of a number in base ten, with no leading zero. -/
def digitsOf (n : Nat) : List Char := Nat.toDigits 10 n

/-- The digits of a number, filled up with zeros in front to a least width. -/
def paddedDigits (width n : Nat) : List Char :=
  let ds := digitsOf n
  List.replicate (width - ds.length) '0' ++ ds

/-- Ten to the power `n`. -/
def pow10 (n : Nat) : Nat := Nat.pow 10 n

theorem pow10_pos (n : Nat) : 0 < pow10 n := Nat.pow_pos (by decide)

theorem pow10_succ (n : Nat) : pow10 (n + 1) = pow10 n * 10 := rfl

end FilterQuery
