/-
FilterQuery.Reference — what users are told about the language.
-/
import FilterQuery.Operator

namespace FilterQuery

namespace Reference

/-- A text filled up with spaces behind it to a least width. -/
def padded (width : Nat) (s : String) : String :=
  s ++ String.ofList (List.replicate (width - s.length) ' ')

/-- The line of an operator in the table. -/
def operatorLine (op : Operator) : String :=
  "  " ++ padded 10 op.name ++ " " ++ padded 11 op.kindName ++ " " ++ op.arity.text ++ "\n"

/-- The table of all operators. -/
def operatorTable : String :=
  "OPERATORS\n\n" ++ String.join (Operator.all.map operatorLine)

/-- The lines of the overview. -/
def overviewLines : List String :=
  ["CALLQ LANGUAGE REFERENCE",
   "",
   "A query is a single operator call. Arguments are nested calls, field names,",
   "or literals:",
   "",
   "  and(eq(status, 'active'), gte(age, 18))",
   "",
   "FIELDS AND VALUES",
   "  age            bare identifier: a field from the schema",
   "  'Bob' \"Bob\"    quoted string: always a value, never a field",
   "  30  -2.5       numbers",
   "  true false     booleans",
   "  null           null (nullable fields, eq/ne/in only)",
   "",
   "  Strings support the escapes \\' \\\" \\\\ \\n \\t \\r.",
   "",
   "COERCION",
   "  number fields   accept numbers and numeric strings ('30')",
   "  boolean fields  accept true/false and 'true'/'false'",
   "  date fields     accept strings in the field's format, or ISO 8601",
   "  enum fields     accept one of the declared variants",
   "  like            requires a string field",
   "",
   "Run 'callq operators' for the operator list."]

/-- The overview of the language. -/
def overview : String := String.join (overviewLines.map (· ++ "\n"))

end Reference

end FilterQuery
