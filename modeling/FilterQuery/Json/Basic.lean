/-
FilterQuery.Json.Basic — JSON values and their text.

Predicates, schemas and diagnostics are handed on as JSON. The members of
an object are kept in the order in which they are to be written, and the
library writes them in alphabetical order everywhere.

Two forms are written: `compact`, with no blanks at all, and `pretty`,
with one member or item on a line and two spaces for each level. A text
is built from left to right onto the text already written, so writing
takes time in proportion to the length of the text.
-/
import FilterQuery.Binary64.Shortest

namespace FilterQuery

/-- A JSON value. -/
inductive Json where
  | null
  | boolean (b : Bool)
  | integer (n : Int)
  | real (x : Binary64)
  | string (s : String)
  | array (items : List Json)
  | object (members : List (String × Json))
deriving Repr

namespace Json

/-! ## Strings -/

/-- The two digits in base sixteen of a control character. -/
def controlDigits (n : Nat) : List Char :=
  [Nat.digitChar (n / 16), Nat.digitChar (n % 16)]

/-- How a character is written inside a JSON string: only the quote, the
backslash and the control characters below the space are escaped. -/
def escape (c : Char) : List Char :=
  match c with
  | '"' => ['\\', '"']
  | '\\' => ['\\', '\\']
  | '\x08' => ['\\', 'b']
  | '\x0c' => ['\\', 'f']
  | '\n' => ['\\', 'n']
  | '\r' => ['\\', 'r']
  | '\t' => ['\\', 't']
  | c => if c.toNat < 0x20 then '\\' :: 'u' :: '0' :: '0' :: controlDigits c.toNat else [c]

/-- A string as JSON text. -/
def quote (s : String) : String :=
  String.ofList ('"' :: s.toList.flatMap escape ++ ['"'])

/-! ## Numbers -/

/-- The powers of ten of the first digit for which a real number is written
with no exponent: from 0.00001 up to, but not including, 10^16. -/
def isPlain (magnitude : Int) : Bool := -5 ≤ magnitude && magnitude < 16

/-- A real number with an exponent: one digit before the point, no point
where nothing follows it, and the sign of the exponent always written. -/
def scientific (d : Binary64.Digits) : List Char :=
  let ds := digitsOf d.digits
  let e := d.magnitude
  ds.take 1 ++ (if ds.length ≤ 1 then [] else '.' :: ds.drop 1) ++
    'e' :: (if e < 0 then '-' else '+') :: digitsOf e.natAbs

/-- The text of a real number: the fewest digits that name it, a tie going
to the even digit. The plain form always has a point. -/
def realText (x : Binary64) : String :=
  let d := Binary64.shortest .even x
  let sign := if x.significand < 0 then ['-'] else []
  if d.digits = 0 then "0.0"
  else if isPlain d.magnitude then
    let n := d.toNumeral false
    String.ofList (sign ++ n.whole ++ '.' :: (if n.fraction.isEmpty then ['0'] else n.fraction))
  else String.ofList (sign ++ scientific d)

/-! ## The compact form -/

/-- The text of a value that has no parts. -/
def atomText : Json → String
  | boolean b => if b then "true" else "false"
  | integer n => toString n
  | real x => realText x
  | string s => quote s
  | _ => "null"

mutual

/-- Write a value behind `out`. -/
def compactOnto (out : String) : Json → String
  | array items => (compactItems (out.push '[') true items).push ']'
  | object members => (compactMembers (out.push '\x7b') true members).push '\x7d'
  | null => out ++ atomText null
  | boolean b => out ++ atomText (boolean b)
  | integer n => out ++ atomText (integer n)
  | real x => out ++ atomText (real x)
  | string s => out ++ atomText (string s)

/-- Write the items of an array; `first` tells whether none has been written. -/
def compactItems (out : String) (first : Bool) : List Json → String
  | [] => out
  | j :: js => compactItems (compactOnto (if first then out else out.push ',') j) false js

/-- Write the members of an object; `first` tells whether none has been written. -/
def compactMembers (out : String) (first : Bool) : List (String × Json) → String
  | [] => out
  | (k, j) :: ms =>
    let out := if first then out else out.push ','
    compactMembers (compactOnto ((out ++ quote k).push ':') j) false ms

end

/-- A value as text with no blanks. -/
def compact (j : Json) : String := compactOnto "" j

/-! ## The form for readers -/

/-- Begin a new line with two spaces for each level. -/
def newLine (out : String) (level : Nat) : String :=
  out.push '\n' ++ String.ofList (List.replicate (2 * level) ' ')

mutual

/-- Write a value behind `out`; its parts stand `level + 1` levels in. -/
def prettyOnto (level : Nat) (out : String) : Json → String
  | array [] => out ++ "[]"
  | object [] => (out.push '\x7b').push '\x7d'
  | array items => (newLine (prettyItems (level + 1) (out.push '[') true items) level).push ']'
  | object members =>
    (newLine (prettyMembers (level + 1) (out.push '\x7b') true members) level).push '\x7d'
  | null => out ++ atomText null
  | boolean b => out ++ atomText (boolean b)
  | integer n => out ++ atomText (integer n)
  | real x => out ++ atomText (real x)
  | string s => out ++ atomText (string s)

/-- Write the items of an array, each on its line. -/
def prettyItems (level : Nat) (out : String) (first : Bool) : List Json → String
  | [] => out
  | j :: js =>
    let out := newLine (if first then out else out.push ',') level
    prettyItems level (prettyOnto level out j) false js

/-- Write the members of an object, each on its line. -/
def prettyMembers (level : Nat) (out : String) (first : Bool) : List (String × Json) → String
  | [] => out
  | (k, j) :: ms =>
    let out := newLine (if first then out else out.push ',') level
    prettyMembers level (prettyOnto level (out ++ quote k ++ ": ") j) false ms

end

/-- A value as text for readers. -/
def pretty (j : Json) : String := prettyOnto 0 "" j

end Json

end FilterQuery
