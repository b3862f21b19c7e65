/-
FilterQuery.Value — literals with the type of a field.

A value is what a literal means to the field it is compared with. Whole
numbers that fit 64 bits are kept apart from other numbers, which stay
exact decimals; nothing is rounded. Dates are kept as dates, or as dates
with a time in UTC.
-/
import FilterQuery.Calendar.Reader
import FilterQuery.Decimal.Approximation
import FilterQuery.Json.Basic
import FilterQuery.Text.Quoted

namespace FilterQuery

/-- An operand of a comparison. -/
inductive Value where
  | null
  | boolean (b : Bool)
  | integer (n : Int64)
  | decimal (d : Decimal)
  /-- A string, or the variant of an enumeration. -/
  | string (s : String)
  | date (d : Date)
  | dateTime (dt : DateTime)
deriving DecidableEq, Repr

namespace Value

/-- The word for the type of a value. -/
def typeName : Value → String
  | null => "null"
  | boolean _ => "boolean"
  | integer _ => "integer"
  | decimal _ => "decimal"
  | string _ => "string"
  | date _ => "date"
  | dateTime _ => "datetime"

/-- Whether the value is null. -/
def isNull : Value → Bool
  | null => true
  | _ => false

/-- The whole number of a value. -/
def toInt64? : Value → Option Int64
  | integer n => some n
  | _ => none

/-- The number of a value, whole or not. -/
def toDecimal? : Value → Option Decimal
  | integer n => some (.ofInt64 n)
  | decimal d => some d
  | _ => none

/-- The string of a value. -/
def toString? : Value → Option String
  | string s => some s
  | _ => none

/-- The value of a number: a whole number if it is one and fits 64 bits, else
the decimal of least scale. -/
def ofDecimal (d : Decimal) : Value :=
  match d.whole? with
  | some n =>
    if -9223372036854775808 ≤ n ∧ n ≤ 9223372036854775807 then integer (Int64.ofInt n)
    else decimal d.normalize
  | none => decimal d.normalize

/-- The value of a date. -/
def ofMoment : Moment → Value
  | .date d => date d
  | .dateTime dt => dateTime dt

/-- The text of a value in a query. -/
def text : Value → String
  | null => "null"
  | boolean b => if b then "true" else "false"
  | integer n => toString n.toInt
  | decimal d => d.text
  | string s => Quoted.quote s
  | date d => "'" ++ d.text ++ "'"
  | dateTime dt => "'" ++ dt.text ++ "'"

/-- A value as JSON. A decimal is a JSON number only if the number leads back
to it, else a string with its digits; dates are strings in the ISO form. -/
def toJson : Value → Json
  | null => .null
  | boolean b => .boolean b
  | integer n => .integer n.toInt
  | decimal d =>
    match d.exactBinary? with
    | some x => .real x
    | none => .string d.text
  | string s => .string s
  | date d => .string d.text
  | dateTime dt => .string dt.text

/-- Whether two values are the same, numbers compared as numbers. -/
def same : Value → Value → Bool
  | decimal a, decimal b => a.sameNumber b
  | a, b => a == b

end Value

end FilterQuery
