/-
FilterQuery.Coercion — what a literal means to a field.

A literal becomes a value of the field's type or is refused, and the
refusal says what would have been accepted. Strings go a long way: a
numeral, a truth value, a date or a variant may be quoted, and a quoted
numeral means the same number as a bare one. Null is a matter of the
operator first and of the field second.
-/
import FilterQuery.Node.Basic
import FilterQuery.Schema.Basic
import FilterQuery.Value

namespace FilterQuery

/-- What would have been accepted in place of a literal. -/
inductive Expectation where
  /-- The operator has no use for null. -/
  | nonNull (op : CompareOp)
  /-- A value of the type, and the field may not be null. -/
  | notNullable (type : FieldType)
  /-- Patterns only match strings. -/
  | stringField
  | ofType (type : FieldType)
deriving DecidableEq, Repr

/-- The words for it in messages. -/
def Expectation.text : Expectation → String
  | nonNull op => "a non-null operand for '" ++ op.name ++ "'"
  | notNullable type => type.expectation ++ " (field is not nullable)"
  | stringField => "a string field for 'like'"
  | ofType type => type.expectation

/-- The value of a string in a field of a type, if it has one. -/
def FieldType.valueOfString? (type : FieldType) (s : String) : Option Value :=
  match type with
  | string => some (.string s)
  | number => (Decimal.ofText? s).map .ofDecimal
  | boolean =>
    if s = "true" then some (.boolean true)
    else if s = "false" then some (.boolean false)
    else none
  | date format => (Moment.ofText? format s).map .ofMoment
  | enum variants => if variants.contains s then some (.string s) else none

/-- The value of a literal other than null in a field of a type, if it has
one. -/
def FieldType.value? (type : FieldType) (literal : Literal) : Option Value :=
  match type, literal with
  | number, .number n => some (.ofDecimal n)
  | boolean, .boolean b => some (.boolean b)
  | type, .string s => type.valueOfString? s
  | _, _ => none

/-- The value of a literal as an operand of a comparison with a field. -/
def Field.coerce (field : Field) (op : CompareOp) (literal : Literal) :
    Except Expectation Value :=
  if literal = .null then
    if !op.acceptsNull then .error (.nonNull op)
    else if !field.nullable then .error (.notNullable field.type)
    else .ok .null
  else if op = .like ∧ field.type ≠ .string then .error .stringField
  else
    match field.type.value? literal with
    | some v => .ok v
    | none => .error (.ofType field.type)

end FilterQuery
