/-
FilterQuery.Check — a query checked on request.

Either only the form of a query is checked, or it is bound to a schema
given as JSON text. In both cases a query with mistakes is an answer, with
one message for each mistake; only a schema that is missing or cannot be
used is a failure of the check itself.
-/
import FilterQuery.Query
import FilterQuery.Schema.Json

namespace FilterQuery

/-- What is to be checked. -/
structure Check where
  query : String
  /-- The schema as JSON text. -/
  schema : Option String := none
  /-- Check the form alone; no schema is needed then. -/
  syntaxOnly : Bool := false
  limits : Limits := {}
deriving Repr

namespace Check

/-- The answer to a check. -/
inductive Answer where
  | syntaxValid
  /-- The query has a meaning; the predicate as JSON. -/
  | success (json : Json)
  /-- The query has mistakes: a message for each, and all of them as JSON. -/
  | invalid (messages : List String) (json : Json)
deriving Repr

/-- Why there is no answer. -/
inductive Failure where
  | noSchema
  | schema (e : SchemaError)
deriving DecidableEq, Repr

/-- The message of a failure. -/
def Failure.message : Failure → String
  | noSchema => "No schema provided. Use --schema, --schema-file, or pipe JSON to stdin."
  | schema e => "Invalid schema: " ++ e.message

/-- Check the form of a query. -/
def answerSyntax (limits : Limits) (query : String) : Answer :=
  let s := Syntactic.ofText limits query
  if s.isOk then .syntaxValid
  else
    .invalid
      (s.lexErrors.map (fun e => "lex error: " ++ e.message) ++
        s.syntaxErrors.map (fun e => "syntax error: " ++ e.message))
      .null

/-- Check a query against a schema. -/
def answerQuery (limits : Limits) (schema : Schema) (query : String) : Answer :=
  let o := Outcome.ofText schema limits query
  match o.predicate with
  | some p => .success p.toJson
  | none => .invalid (o.diagnostics.map Diagnostic.text) o.diagnosticsJson

/-- Carry out a check. -/
def run (c : Check) : Except Failure Answer :=
  if c.syntaxOnly then .ok (answerSyntax c.limits c.query)
  else
    match c.schema with
    | none => .error .noSchema
    | some text =>
      match Schema.ofText text with
      | .error e => .error (.schema e)
      | .ok schema => .ok (answerQuery c.limits schema c.query)

end Check

end FilterQuery
