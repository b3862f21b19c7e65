/-
FilterQuery.Query — a query text turned into a predicate.

The three steps, tokens, tree and binding, each report their own errors
and go on with what they have, so that one reading of a query shows as
many mistakes as possible. There is a predicate only if there are none at
all. A text that is too long is not read, and so has no other errors.
-/
import FilterQuery.Binding
import FilterQuery.Limits
import FilterQuery.Node.Parse
import FilterQuery.Token.Run

namespace FilterQuery

/-- A mistake of any of the three steps. -/
inductive Diagnostic where
  | lexical (e : LexError)
  | syntactic (e : SyntaxError)
  | semantic (e : BindError)
deriving DecidableEq, Repr

namespace Diagnostic

/-- The word for the step. -/
def stage : Diagnostic → String
  | lexical _ => "lex"
  | syntactic _ => "syntax"
  | semantic _ => "semantic"

/-- Where the mistake is reported. -/
def position : Diagnostic → Position
  | lexical e => e.position
  | syntactic e => e.position
  | semantic e => e.position

/-- The message of the mistake. -/
def message : Diagnostic → String
  | lexical e => e.message
  | syntactic e => e.message
  | semantic e => e.message

/-- The message as a line of its own, which says the step as well. -/
def text : Diagnostic → String
  | lexical e => "lex error: " ++ e.message
  | syntactic e => "syntax error: " ++ e.message
  | semantic e => "semantic error: " ++ e.message

/-- A diagnostic as JSON, with the step and the message apart. -/
def toJson (d : Diagnostic) : Json :=
  .object
    [("column", .integer d.position.column), ("line", .integer d.position.line),
     ("message", .string d.message), ("offset", .integer d.position.offset),
     ("stage", .string d.stage)]

end Diagnostic

/-- What the first two steps give. -/
structure Syntactic where
  ast : Option Node
  lexErrors : List LexError
  syntaxErrors : List SyntaxError
deriving Repr

namespace Syntactic

/-- Read a query text into a tree. -/
def ofText (limits : Limits) (text : String) : Syntactic :=
  let lexed := Lexed.ofBoundedText limits.maxInputLength text
  if text.utf8ByteSize > limits.maxInputLength then
    { ast := none, lexErrors := lexed.errors, syntaxErrors := [] }
  else
    let parsed := Parsed.ofTokens limits.maxDepth lexed.tokens lexed.stop
    { ast := parsed.ast, lexErrors := lexed.errors, syntaxErrors := parsed.errors }

/-- Whether a tree was read without a mistake. -/
def isOk (s : Syntactic) : Bool :=
  s.ast.isSome && s.lexErrors.isEmpty && s.syntaxErrors.isEmpty

/-- The mistakes of the two steps, in order. -/
def diagnostics (s : Syntactic) : List Diagnostic :=
  s.lexErrors.map .lexical ++ s.syntaxErrors.map .syntactic

end Syntactic

/-- The mistakes of a query that has no meaning, step by step. -/
structure QueryError where
  lexErrors : List LexError
  syntaxErrors : List SyntaxError
  bindErrors : List BindError
deriving DecidableEq, Repr

namespace QueryError

/-- The number of mistakes. -/
def count (e : QueryError) : Nat :=
  e.lexErrors.length + e.syntaxErrors.length + e.bindErrors.length

/-- The messages of the mistakes, without the steps. -/
def messages (e : QueryError) : List String :=
  e.lexErrors.map (·.message) ++ e.syntaxErrors.map (·.message) ++ e.bindErrors.map (·.message)

/-- One line about the mistakes: how many there are, and the first of them. -/
def text (e : QueryError) : String :=
  "invalid query (" ++ toString e.count ++ " error(s))" ++
    match e.messages with
    | [] => ""
    | first :: _ => ": " ++ first

end QueryError

/-- What reading a query gives. -/
structure Outcome where
  predicate : Option Predicate
  lexErrors : List LexError
  syntaxErrors : List SyntaxError
  bindErrors : List BindError
deriving Repr

namespace Outcome

/-- What a tree gives when it is bound to a schema. -/
def ofSyntactic (schema : Schema) (s : Syntactic) : Outcome :=
  let bound := (s.ast.map schema.bind).getD ⟨none, []⟩
  let clean := s.lexErrors.isEmpty && s.syntaxErrors.isEmpty && bound.errors.isEmpty
  { predicate := if clean then bound.predicate else none
    lexErrors := s.lexErrors
    syntaxErrors := s.syntaxErrors
    bindErrors := bound.errors }

/-- Read a query text and bind it to a schema. -/
def ofText (schema : Schema) (limits : Limits) (text : String) : Outcome :=
  ofSyntactic schema (Syntactic.ofText limits text)

/-- Whether the query has a meaning. -/
def isOk (o : Outcome) : Bool := o.predicate.isSome

/-- All mistakes, in the order of the steps. -/
def diagnostics (o : Outcome) : List Diagnostic :=
  o.lexErrors.map .lexical ++ o.syntaxErrors.map .syntactic ++ o.bindErrors.map .semantic

/-- The number of mistakes. -/
def errorCount (o : Outcome) : Nat :=
  o.lexErrors.length + o.syntaxErrors.length + o.bindErrors.length

/-- All mistakes as JSON. -/
def diagnosticsJson (o : Outcome) : Json := .array (o.diagnostics.map Diagnostic.toJson)

/-- The mistakes alone. -/
def failure (o : Outcome) : QueryError := ⟨o.lexErrors, o.syntaxErrors, o.bindErrors⟩

/-- The predicate, or all mistakes if there is none. -/
def toResult (o : Outcome) : Except QueryError Predicate :=
  match o.predicate with
  | some p => .ok p
  | none => .error o.failure

/-- The predicate, or one line about the mistakes, for a caller that only shows
them. -/
def toExcept (o : Outcome) : Except String Predicate := o.toResult.mapError QueryError.text

/-- Whether a predicate is read back from its own text. -/
def readsBack (schema : Schema) (limits : Limits) (p : Predicate) : Bool :=
  match (ofText schema limits p.text).predicate with
  | some q => p.same q
  | none => false

end Outcome

end FilterQuery
