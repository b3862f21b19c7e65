/-
FilterQuery.Log — what a check notes down of its own work.

While a query is read and bound, the steps note what they do: each token,
each mistake in the form, each token skipped behind one, each field that
is found, and at the end of reading and of binding how much came of it.
No answer depends on these notes. Which of them are shown, and how they are
written, is up to whoever runs the program.

The notes depend on the tokens, the errors and the tree alone, so they are
read off these (`Check.events`) and the steps do not carry them along. Their
order is that of the work: all tokens are read before the first call is, and
all calls before the first is bound.

All notes are for whoever looks into the program. There is none that a user
has to see, whatever the query (`Check.isDetail_of_mem_events`).
-/
import FilterQuery.Check

namespace FilterQuery

/-! ## Notes -/

/-- How much a note matters. -/
inductive LogLevel where
  | error
  | warn
  | info
  | debug
  | trace
deriving DecidableEq, Repr

namespace LogLevel

/-- The place of a level in the order of the levels, the one that matters most
first. -/
def rank : LogLevel → Nat
  | error => 1
  | warn => 2
  | info => 3
  | debug => 4
  | trace => 5

/-- The word for the level, in five columns. -/
def text : LogLevel → String
  | error => "ERROR"
  | warn => " WARN"
  | info => " INFO"
  | debug => "DEBUG"
  | trace => "TRACE"

end LogLevel

/-- A note: the part of the program that makes it, what it says, and the values
that belong to it by name. -/
structure LogEvent where
  level : LogLevel
  target : String
  message : String
  values : List (String × String)
deriving DecidableEq, Repr

namespace LogEvent

/-- Whether the note is of the given level or of one that matters more. -/
def upTo (level : LogLevel) (e : LogEvent) : Bool := e.level.rank ≤ level.rank

/-- Whether the note is for whoever looks into the program, and not for its user. -/
def isDetail (e : LogEvent) : Bool := !e.upTo .info

/-- What is shown unless something else is asked for leaves out all details. -/
theorem upTo_warn_of_isDetail {e : LogEvent} (h : e.isDetail = true) : e.upTo .warn = false := by
  have hrank : ¬e.level.rank ≤ LogLevel.info.rank := by simpa [isDetail, upTo] using h
  exact decide_eq_false fun hle => hrank (Nat.le_trans hle (by decide))

/-- The note in one line. -/
def text (e : LogEvent) : String :=
  e.level.text ++ " " ++ e.target ++ ": " ++ e.message ++
    String.join (e.values.map fun (name, value) => " " ++ name ++ "=" ++ value)

end LogEvent

/-! ## Reading -/

/-- The note of a token that has been read. -/
def Token.event (t : Token) : LogEvent :=
  ⟨.trace, "callq::lexer", "token", [("lexeme", t.lexeme), ("at", t.position.text)]⟩

namespace SyntaxError

/-- Whether the reader looks for the next separator once it has reported the
error. It does so at a token that begins no argument, and at one that stands
behind an argument but separates nothing. -/
def isSkippedFrom : SyntaxError → Bool
  | unexpectedToken .argument _ _ => true
  | unexpectedToken .separator _ _ => true
  | _ => false

/-- The tokens that are skipped behind the error: those from where it is reported
on, up to the separator. -/
def skipped (e : SyntaxError) (tokens : List Token) : List Token :=
  if e.isSkippedFrom then
    let ahead := tokens.dropWhile (·.position != e.position)
    match Parse.synchronize 0 ahead with
    | [] => ahead
    | t :: _ => ahead.takeWhile (·.position != t.position)
  else []

/-- The note in front of the error. Only the nesting limit has one. -/
def warning : SyntaxError → List LogEvent
  | nestingTooDeep limit p =>
    [⟨.debug, "callq::parser", "nesting limit reached",
      [("limit", toString limit), ("at", p.text)]⟩]
  | _ => []

/-- The notes of an error and of the tokens skipped behind it. -/
def events (tokens : List Token) (e : SyntaxError) : List LogEvent :=
  e.warning ++ ⟨.trace, "callq::parser", "syntax error", [("error", e.message)]⟩ ::
    (e.skipped tokens).map fun t =>
      ⟨.trace, "callq::parser", "skipping", [("lexeme", t.lexeme)]⟩

end SyntaxError

/-- The notes of reading a query text. A text that is too long is not read. -/
def Syntactic.events (limits : Limits) (text : String) : List LogEvent :=
  if text.utf8ByteSize > limits.maxInputLength then []
  else
    let tokens := (Lexed.ofText text).tokens
    let s := ofText limits text
    tokens.map Token.event ++ s.syntaxErrors.flatMap (SyntaxError.events tokens) ++
      [⟨.debug, "callq::query", "parsed query",
        [("tokens", toString tokens.length), ("lex_errors", toString s.lexErrors.length),
         ("parse_errors", toString s.syntaxErrors.length)]⟩]

/-! ## Binding -/

namespace Binding

/-- The note of a field that has been found. -/
def fieldEvent (name : String) (field : Field) : LogEvent :=
  ⟨.trace, "callq::binder", "resolved field",
    [("field", name), ("ty", "\"" ++ field.type.name ++ "\"")]⟩

/-- The note of a comparison: its field, if the schema has it. -/
def comparisonEvents (schema : Schema) : List Node → List LogEvent
  | .field name _ :: _ => (schema.get? name).toList.map (fieldEvent name)
  | _ => []

mutual

/-- The notes of binding a node where a predicate is asked for. -/
def nodeEvents (schema : Schema) : Node → List LogEvent
  | .call (.combine _) args _ => nodesEvents schema args
  | .call (.compare _) args _ => comparisonEvents schema args
  | _ => []

/-- The notes of binding nodes where predicates are asked for, one after the
other. -/
def nodesEvents (schema : Schema) : List Node → List LogEvent
  | [] => []
  | n :: ns => nodeEvents schema n ++ nodesEvents schema ns

end

end Binding

/-- The notes of reading a query text and binding it to a schema. -/
def Outcome.events (schema : Schema) (limits : Limits) (text : String) : List LogEvent :=
  let o := ofText schema limits text
  Syntactic.events limits text ++
    (Syntactic.ofText limits text).ast.toList.flatMap (Binding.nodeEvents schema) ++
    [⟨.debug, "callq::query", "bound query",
      [("ok", toString o.isOk), ("bind_errors", toString o.bindErrors.length)]⟩]

/-- The notes of a check. Nothing is noted of a schema that cannot be used. -/
def Check.events (c : Check) : List LogEvent :=
  if c.syntaxOnly then Syntactic.events c.limits c.query
  else
    match c.schema.map Schema.ofText with
    | some (.ok schema) => Outcome.events schema c.limits c.query
    | _ => []

/-! ## Every note is a detail -/

theorem SyntaxError.isDetail_of_mem_events {e : SyntaxError} {tokens : List Token}
    {event : LogEvent} (h : event ∈ e.events tokens) : event.isDetail = true := by
  rw [events, List.mem_append, List.mem_cons, List.mem_map] at h
  rcases h with hwarning | rfl | ⟨t, _, rfl⟩
  · cases e with
    | nestingTooDeep limit p =>
      obtain rfl := List.mem_singleton.mp hwarning
      rfl
    | _ => cases hwarning
  · rfl
  · rfl

theorem Syntactic.isDetail_of_mem_events {limits : Limits} {text : String} {event : LogEvent}
    (h : event ∈ events limits text) : event.isDetail = true := by
  unfold events at h
  split at h
  · cases h
  · simp only [List.mem_append, List.mem_map, List.mem_flatMap, List.mem_singleton] at h
    rcases h with (⟨t, _, rfl⟩ | ⟨e, _, he⟩) | rfl
    · rfl
    · exact SyntaxError.isDetail_of_mem_events he
    · rfl

namespace Binding

theorem isDetail_of_mem_comparisonEvents {schema : Schema} {args : List Node} {event : LogEvent}
    (h : event ∈ comparisonEvents schema args) : event.isDetail = true := by
  unfold comparisonEvents at h
  split at h
  · obtain ⟨field, _, rfl⟩ := List.mem_map.mp h
    rfl
  · cases h

mutual

theorem isDetail_of_mem_nodeEvents {schema : Schema} {event : LogEvent} :
    ∀ {n : Node}, event ∈ nodeEvents schema n → event.isDetail = true
  | .call (.combine _) args _, h => isDetail_of_mem_nodesEvents (by rwa [nodeEvents] at h)
  | .call (.compare _) args _, h => isDetail_of_mem_comparisonEvents (by rwa [nodeEvents] at h)
  | .field _ _, h | .literal _ _, h | .invalid _, h => by simp [nodeEvents] at h

theorem isDetail_of_mem_nodesEvents {schema : Schema} {event : LogEvent} :
    ∀ {ns : List Node}, event ∈ nodesEvents schema ns → event.isDetail = true
  | [], h => by simp [nodesEvents] at h
  | n :: ns, h => by
    rw [nodesEvents, List.mem_append] at h
    rcases h with hn | hns
    · exact isDetail_of_mem_nodeEvents hn
    · exact isDetail_of_mem_nodesEvents hns

end

end Binding

theorem Outcome.isDetail_of_mem_events {schema : Schema} {limits : Limits} {text : String}
    {event : LogEvent} (h : event ∈ events schema limits text) : event.isDetail = true := by
  simp only [events, List.mem_append, List.mem_flatMap, List.mem_singleton] at h
  rcases h with (hread | ⟨n, _, hn⟩) | rfl
  · exact Syntactic.isDetail_of_mem_events hread
  · exact Binding.isDetail_of_mem_nodeEvents hn
  · rfl

/-- A check notes nothing that its user has to see. -/
theorem Check.isDetail_of_mem_events {c : Check} {event : LogEvent} (h : event ∈ c.events) :
    event.isDetail = true := by
  unfold events at h
  split at h
  · exact Syntactic.isDetail_of_mem_events h
  · split at h
    · exact Outcome.isDetail_of_mem_events h
    · cases h

end FilterQuery
