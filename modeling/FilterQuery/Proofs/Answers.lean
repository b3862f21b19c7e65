/-
FilterQuery.Proofs.Answers — what a check says, and that it is never silent.

A check looks at the form of a query alone, or binds the query to a schema
as well. The second says everything that the first says, in the same words
and the same order, and then what is wrong with the meaning of the query
(`Check.modes_agree`). What it hands on as JSON is the same again, line by
line. Each of the three puts its words together for itself; that they are the
same words is `Syntactic.lines_eq` and `Diagnostic.line?_toJson`.

A query that is refused is refused with a message. Nothing in the way an
answer is put together makes sure of this: the form is refused where there
is no tree, and the query where there is no predicate, whether or not a
mistake has been found. That there is one is what reading and binding
promise (`Syntactic.sentence_of_errors`, `Outcome.isSome_of_no_errors`).
From this follows what a caller of the program may rely on: a run either
succeeds with an output and no message, or fails with a message and no
output (`Result.IsDecisive`), also where a file or a schema is of no use.

The error output is not for messages alone. A caller that asks for details
finds the notes of the check in front of them, and finds them too where there
is no message (`Check.noted_of_debug`); what can be relied on is then said of
what stands behind the notes (`Result.IsDecisiveBehind`).
-/
import FilterQuery.CommandLine
import FilterQuery.Proofs.Explanation
import FilterQuery.Proofs.Reload

namespace FilterQuery

/-! ## 1. What is wrong with a query -/

namespace Syntactic

theorem diagnostics_eq_nil {s : Syntactic} :
    s.diagnostics = [] ↔ s.lexErrors = [] ∧ s.syntaxErrors = [] := by
  unfold diagnostics
  simp

/-- The form of a query is accepted exactly if nothing is wrong with it: where no
mistake is reported, there is a tree. -/
theorem isOk_iff_diagnostics {limits : Limits} {text : String} :
    (ofText limits text).isOk = true ↔ (ofText limits text).diagnostics = [] := by
  rw [diagnostics_eq_nil]
  unfold isOk
  simp only [Bool.and_eq_true, List.isEmpty_iff]
  constructor
  · rintro ⟨⟨_, hlex⟩, hparse⟩
    exact ⟨hlex, hparse⟩
  · rintro ⟨hlex, hparse⟩
    obtain ⟨_, e, _, _, _, hast⟩ := sentence_of_errors hlex hparse
    exact ⟨⟨by rw [hast]; rfl, hlex⟩, hparse⟩

end Syntactic

namespace Outcome

/-- What is wrong with a query is what is wrong with its form, and then what is wrong
with its meaning. -/
theorem diagnostics_ofText (schema : Schema) (limits : Limits) (text : String) :
    (ofText schema limits text).diagnostics =
      (Syntactic.ofText limits text).diagnostics ++
        (ofText schema limits text).bindErrors.map .semantic := rfl

theorem isSome_iff_diagnostics {schema : Schema} {limits : Limits} {text : String} :
    (ofText schema limits text).predicate.isSome = true ↔
      (ofText schema limits text).diagnostics = [] := by
  rw [diagnostics_eq_nil]
  constructor
  · intro h
    obtain ⟨p, hp⟩ := Option.isSome_iff_exists.mp h
    obtain ⟨hlex, hparse, hbind, _⟩ := of_predicate hp
    exact ⟨hlex, hparse, hbind⟩
  · rintro ⟨hlex, hparse, hbind⟩
    exact isSome_of_no_errors hlex hparse hbind

end Outcome

/-! ## 2. Answers -/

/-- The line that a mistake handed on as JSON stands for: its stage and its message. -/
def Json.line? : Json → Option String
  | .object members =>
    match members.lookup "stage", members.lookup "message" with
    | some (.string stage), some (.string message) => some (stage ++ " error: " ++ message)
    | _, _ => none
  | _ => none

/-- The line of a mistake is its stage and its message. -/
theorem Diagnostic.text_eq (d : Diagnostic) : d.text = d.stage ++ " error: " ++ d.message := by
  cases d with
  | lexical e => rfl
  | syntactic e => rfl
  | semantic e => rfl

theorem Diagnostic.line?_toJson (d : Diagnostic) : d.toJson.line? = some d.text := by
  rw [Diagnostic.text_eq]
  rfl

/-- The lines of the mistakes in the form of a query, each kind with its own words in
front, are the lines of the diagnostics. -/
theorem Syntactic.lines_eq (s : Syntactic) :
    s.lexErrors.map (fun e => "lex error: " ++ e.message) ++
      s.syntaxErrors.map (fun e => "syntax error: " ++ e.message) =
      s.diagnostics.map Diagnostic.text := by
  unfold diagnostics
  rw [List.map_append, List.map_map, List.map_map]
  rfl

namespace Check

/-- The messages of an answer; a query that is accepted has none. -/
def Answer.messages : Answer → List String
  | invalid messages _ => messages
  | _ => []

/-- The form of a query is valid if nothing is wrong with it, and otherwise every
mistake is said. -/
theorem answerSyntax_cases (limits : Limits) (query : String) :
    (answerSyntax limits query = .syntaxValid ∧
      (Syntactic.ofText limits query).diagnostics = []) ∨
    (answerSyntax limits query =
        .invalid ((Syntactic.ofText limits query).diagnostics.map Diagnostic.text) .null ∧
      (Syntactic.ofText limits query).diagnostics ≠ []) := by
  unfold answerSyntax
  dsimp only
  rw [Syntactic.lines_eq]
  split
  · next hok => exact .inl ⟨rfl, Syntactic.isOk_iff_diagnostics.mp hok⟩
  · next hok => exact .inr ⟨rfl, fun hnone => hok (Syntactic.isOk_iff_diagnostics.mpr hnone)⟩

/-- A query has a predicate if nothing is wrong with it, and otherwise every mistake
is said. -/
theorem answerQuery_cases (limits : Limits) (schema : Schema) (query : String) :
    (∃ p : Predicate, answerQuery limits schema query = .success p.toJson ∧
      (Outcome.ofText schema limits query).diagnostics = []) ∨
    (answerQuery limits schema query =
        .invalid ((Outcome.ofText schema limits query).diagnostics.map Diagnostic.text)
          (Outcome.ofText schema limits query).diagnosticsJson ∧
      (Outcome.ofText schema limits query).diagnostics ≠ []) := by
  have hlaw := @Outcome.isSome_iff_diagnostics schema limits query
  unfold answerQuery
  dsimp only
  split
  · next p hp => exact .inl ⟨p, rfl, hlaw.mp (by rw [hp]; rfl)⟩
  · next hnone =>
    refine .inr ⟨rfl, ?_⟩
    intro hempty
    rw [← hlaw, hnone] at hempty
    exact absurd hempty Bool.false_ne_true

theorem messages_answerSyntax (limits : Limits) (query : String) :
    (answerSyntax limits query).messages =
      (Syntactic.ofText limits query).diagnostics.map Diagnostic.text := by
  rcases answerSyntax_cases limits query with ⟨hanswer, hnone⟩ | ⟨hanswer, _⟩
  · rw [hanswer, hnone]
    rfl
  · rw [hanswer]
    rfl

theorem messages_answerQuery (limits : Limits) (schema : Schema) (query : String) :
    (answerQuery limits schema query).messages =
      (Outcome.ofText schema limits query).diagnostics.map Diagnostic.text := by
  rcases answerQuery_cases limits schema query with ⟨p, hanswer, hnone⟩ | ⟨hanswer, _⟩
  · rw [hanswer, hnone]
    rfl
  · rw [hanswer]
    rfl

/-- What is accepted with a schema is accepted without one. -/
theorem syntaxValid_of_success {limits : Limits} {schema : Schema} {query : String} {json : Json}
    (h : answerQuery limits schema query = .success json) :
    answerSyntax limits query = .syntaxValid := by
  rcases answerQuery_cases limits schema query with ⟨_, _, hnone⟩ | ⟨hanswer, _⟩
  · rw [Outcome.diagnostics_ofText, List.append_eq_nil_iff] at hnone
    rcases answerSyntax_cases limits query with ⟨hvalid, _⟩ | ⟨_, hsome⟩
    · exact hvalid
    · exact absurd hnone.1 hsome
  · rw [hanswer] at h
    cases h

/-- A query that is refused is refused with a message, and what is handed on as JSON
is the messages again. -/
theorem messages_of_invalid {c : Check} {messages : List String} {json : Json}
    (h : run c = .ok (.invalid messages json)) :
    messages ≠ [] ∧
      if c.syntaxOnly then json = .null
      else ∃ items, json = .array items ∧ items.map Json.line? = messages.map some := by
  unfold run at h
  split at h
  · next hform =>
    have hanswer := Except.ok.inj h
    rw [if_pos hform]
    rcases answerSyntax_cases c.limits c.query with ⟨hvalid, _⟩ | ⟨hinvalid, hsome⟩
    · cases hvalid.symm.trans hanswer
    · cases hinvalid.symm.trans hanswer
      exact ⟨List.map_eq_nil_iff.not.mpr hsome, rfl⟩
  · next hform =>
    rw [if_neg hform]
    split at h
    · cases h
    split at h
    · cases h
    · next schema _ =>
      have hanswer := Except.ok.inj h
      rcases answerQuery_cases c.limits schema c.query with ⟨p, hsuccess, _⟩ | ⟨hinvalid, hsome⟩
      · cases hsuccess.symm.trans hanswer
      · cases hinvalid.symm.trans hanswer
        refine ⟨List.map_eq_nil_iff.not.mpr hsome, _, rfl, ?_⟩
        rw [List.map_map, List.map_map]
        exact List.map_congr_left fun d _ => Diagnostic.line?_toJson d

end Check

/-! ## 3. Runs of the program -/

namespace CommandLine

namespace Result

/-- Whether a run succeeds with an output and no message, or fails with a message and
no output. -/
def IsDecisive (r : Result) : Prop :=
  (r.exitCode = 0 ∧ r.stdout ≠ "" ∧ r.stderr = "") ∨
    (r.exitCode = 1 ∧ r.stdout = "" ∧ r.stderr ≠ "")

/-- The same of a run that leaves some lines on its error output in front of all
messages. -/
def IsDecisiveBehind (lines : String) (r : Result) : Prop :=
  (r.exitCode = 0 ∧ r.stdout ≠ "" ∧ r.stderr = lines) ∨
    (r.exitCode = 1 ∧ r.stdout = "" ∧ ∃ said, said ≠ "" ∧ r.stderr = lines ++ said)

theorem behind_empty (r : Result) : r.behind "" = r := by
  rw [behind, String.empty_append]

theorem IsDecisive.behind {r : Result} (h : r.IsDecisive) (lines : String) :
    (r.behind lines).IsDecisiveBehind lines := by
  rcases h with ⟨hcode, hout, herr⟩ | ⟨hcode, hout, herr⟩
  · refine .inl ⟨hcode, hout, ?_⟩
    rw [Result.behind, herr, String.append_empty]
  · exact .inr ⟨hcode, hout, r.stderr, herr, rfl⟩

theorem line_ne_empty (s : String) : s ++ "\n" ≠ "" := by
  rw [Ne, String.append_eq_empty_iff]
  rintro ⟨_, h⟩
  exact absurd h (by decide)

theorem isDecisive_ofOutput {out : String} (h : out ≠ "") : (ofOutput out).IsDecisive :=
  .inl ⟨rfl, h, rfl⟩

theorem isDecisive_ofMessages {messages : List String} (h : messages ≠ []) :
    (ofMessages messages).IsDecisive := by
  obtain ⟨message, rest, rfl⟩ := List.exists_cons_of_ne_nil h
  refine .inr ⟨rfl, rfl, ?_⟩
  rw [ofMessages, List.map_cons, String.join_cons, Ne, String.append_eq_empty_iff]
  exact fun hempty => line_ne_empty message hempty.1

theorem isDecisive_ofAnswer (pretty : Bool) {answer : Except Check.Failure Check.Answer}
    (h : ∀ messages json, answer = .ok (.invalid messages json) → messages ≠ []) :
    (ofAnswer pretty answer).IsDecisive := by
  match answer with
  | .ok .syntaxValid => exact isDecisive_ofOutput (by decide)
  | .ok (.success json) => exact isDecisive_ofOutput (line_ne_empty _)
  | .ok (.invalid messages json) => exact isDecisive_ofMessages (h messages json rfl)
  | .error e => exact isDecisive_ofMessages (List.cons_ne_nil _ _)

end Result

/-- Whatever is read for a check, or cannot be read, the check is decided. -/
theorem CheckCommand.isDecisive_result (c : CheckCommand)
    (reading : Except FileError (Option String)) : (c.result reading).IsDecisive := by
  cases reading with
  | error e => exact Result.isDecisive_ofMessages (List.cons_ne_nil _ _)
  | ok schema => exact Result.isDecisive_ofAnswer c.pretty fun _ _ h => (Check.messages_of_invalid h).1

theorem CheckCommand.isDetail_of_mem_events {c : CheckCommand}
    {reading : Except FileError (Option String)} {e : LogEvent} (h : e ∈ c.events reading) :
    e.isDetail = true := by
  cases reading with
  | error _ => cases h
  | ok schema => exact Check.isDetail_of_mem_events h

section Runs

variable {m : Type → Type} [Monad m] (env : Environment m)

/-- A check only looks at what is read for it. -/
theorem run_of_check {args : List String} {c : CheckCommand} (h : read args = some (.check c)) :
    run env args = do
      let reading ← readSchema env c.source
      let lines ← env.log (c.events reading)
      return (c.result reading).behind lines := by
  rw [run, h]
  rfl

variable [LawfulMonad m]

theorem log_of_hidden {events : List LogEvent} (h : ∀ e ∈ events, env.shows e = false) :
    env.log events = pure "" := by
  have hnone : events.filter env.shows = [] := by
    rw [List.filter_eq_nil_iff]
    exact fun e he => by rw [h e he]; exact Bool.false_ne_true
  rw [Environment.log, hnone, List.mapM_nil, pure_bind]
  rfl

/-- Where no details are shown, a check leaves nothing but its result behind. -/
theorem run_of_hidden (hquiet : ∀ e : LogEvent, e.isDetail = true → env.shows e = false)
    {args : List String} {c : CheckCommand} (h : read args = some (.check c)) :
    run env args = c.result <$> readSchema env c.source := by
  have hlog (reading : Except FileError (Option String)) :
      env.log (c.events reading) = pure "" :=
    log_of_hidden env fun e he => hquiet e (CheckCommand.isDetail_of_mem_events he)
  rw [run_of_check env h]
  simp only [hlog, pure_bind, Result.behind_empty]
  exact bind_pure_comp c.result (readSchema env c.source)

end Runs

end CommandLine

/-! ## 4. The two modes -/

open CommandLine (CheckCommand Environment FileError) in
/-- **The two modes of a check agree, and none is silent.** Take a text that is a
schema. Whatever the query and the limits are:

* both modes have an answer. The messages about the form of the query are the
  lexical errors and then the syntactic ones, each with its stage in front; with the
  schema the same messages come first, and then the semantic errors;
* a query that is accepted with the schema is accepted for its form.

Whatever is checked, a query that is refused is refused with at least one message;
and with a schema, what is handed on as JSON is one object for each message, in the
same order, whose stage and message make up that message.

Whatever the arguments of the program, the files and the standard input are, a run
that checks a query reads the schema and writes its notes, as far as they are shown.
Behind these lines, it either succeeds with an output and no message or fails with a
message and no output. Where no details are shown, there are no such lines. -/
theorem Check.modes_agree {text : String} {schema : Schema}
    (hschema : Schema.ofText text = .ok schema) (limits : Limits) (query : String)
    (unread : Option String) :
    (∃ full form : Answer,
      run { query, schema := some text, limits } = .ok full ∧
      run { query, schema := unread, syntaxOnly := true, limits } = .ok form ∧
      form.messages =
        (Syntactic.ofText limits query).lexErrors.map (fun e => "lex error: " ++ e.message) ++
        (Syntactic.ofText limits query).syntaxErrors.map
          (fun e => "syntax error: " ++ e.message) ∧
      full.messages = form.messages ++
        (Outcome.ofText schema limits query).bindErrors.map
          (fun e => "semantic error: " ++ e.message) ∧
      ∀ json, full = .success json → form = .syntaxValid) ∧
    (∀ (c : Check) (messages : List String) (json : Json),
      run c = .ok (.invalid messages json) → messages ≠ [] ∧
        if c.syntaxOnly then json = .null
        else ∃ items, json = .array items ∧ items.map Json.line? = messages.map some) ∧
    (∀ (m : Type → Type) [Monad m] [LawfulMonad m] (env : Environment m) (args : List String)
      (c : CheckCommand), CommandLine.read args = some (.check c) →
        (CommandLine.run env args = do
          let reading ← CommandLine.readSchema env c.source
          let lines ← env.log (c.events reading)
          return (c.result reading).behind lines) ∧
        (∀ (reading : Except FileError (Option String)) (lines : String),
          ((c.result reading).behind lines).IsDecisiveBehind lines) ∧
        ((∀ e : LogEvent, e.isDetail = true → env.shows e = false) →
          CommandLine.run env args = c.result <$> CommandLine.readSchema env c.source ∧
          ∀ reading : Except FileError (Option String), (c.result reading).IsDecisive)) := by
  refine ⟨⟨answerQuery limits schema query, answerSyntax limits query, ?_, rfl, ?_, ?_, ?_⟩,
    fun c messages json => messages_of_invalid, ?_⟩
  · unfold run
    simp only [hschema]
    rfl
  · rw [messages_answerSyntax, Syntactic.lines_eq]
  · rw [messages_answerQuery, messages_answerSyntax, Outcome.diagnostics_ofText, List.map_append,
      List.map_map]
    rfl
  · exact fun json => syntaxValid_of_success
  · intro m _ _ env args c hread
    exact ⟨CommandLine.run_of_check env hread,
      fun reading lines => (c.isDecisive_result reading).behind lines,
      fun hquiet => ⟨CommandLine.run_of_hidden env hquiet hread, c.isDecisive_result⟩⟩

open CommandLine Parse in
/-- A call that is not closed, with a character that begins nothing and a field that
the schema does not have: the form alone has two messages, and with the schema there
are three. -/
theorem Check.modes_agree_of_open_call :
    let query := "eq(height,$1"
    let schema := Schema.empty.insert "age" ⟨.number, false⟩
    let text := "\x7b\"age\":\x7b\"nullable\":false,\"type\":\"number\"\x7d\x7d"
    let c : CheckCommand := ⟨query, .given text, true, false, { maxDepth := 7 }⟩
    let env : Environment Id := { standardInput := .ok "", fileText := fun _ => .error .notText }
    Schema.ofText text = .ok schema ∧
    CommandLine.read ["check", "-ps", text, "--max-depth=7", query] = some (.check c) ∧
    (∃ full form : Answer, run { query, schema := some text } = .ok full ∧
      run { query, syntaxOnly := true } = .ok form ∧
      form.messages = ["lex error: illegal character '$' at 1:11",
        "syntax error: expected ')', found end of input at 1:13"] ∧
      full.messages = form.messages ++ ["semantic error: unknown field 'height' at 1:4"]) ∧
    (CommandLine.run env ["check", "-ps", text, "--max-depth=7", query] =
      c.result (.ok (some text)) ∧ (c.result (.ok (some text))).IsDecisive) := by
  intro query schema text c env
  have htext : schema.toJson.compact = text := by decide +kernel
  have hschema : Schema.ofText text = .ok schema := by
    rw [← htext, Schema.ofText_of_savedAs
      (Schema.savedAs_of_textOf (Json.textOf_compact schema.plain_toJson))]
    rfl
  have hcommand : CommandLine.read ["check", "-ps", text, "--max-depth=7", query] =
      some (.check c) := by
    unfold text c query
    rfl
  have hlexed : (Lexed.ofText query).tokens =
        [⟨.operator (.compare .eq), "eq", ⟨0, 1, 1⟩⟩, ⟨.openParen, "(", ⟨2, 1, 3⟩⟩,
          ⟨.identifier "height", "height", ⟨3, 1, 4⟩⟩, ⟨.comma, ",", ⟨9, 1, 10⟩⟩,
          ⟨.number ⟨1, 0, by decide, by decide⟩, "1", ⟨11, 1, 12⟩⟩] ∧
      (Lexed.ofText query).errors = [.illegalCharacter '$' ⟨10, 1, 11⟩] ∧
      (Lexed.ofText query).stop = ⟨12, 1, 13⟩ := by
    decide +kernel
  have hread : Syntactic.ofText {} query =
      { ast := some (.call (.compare .eq) [.field "height" ⟨3, 1, 4⟩,
          .literal (.number ⟨1, 0, by decide, by decide⟩) ⟨11, 1, 12⟩] ⟨0, 1, 1⟩)
        lexErrors := [.illegalCharacter '$' ⟨10, 1, 11⟩]
        syntaxErrors := [.unexpectedEnd .closeParen ⟨12, 1, 13⟩] } := by
    rw [Syntactic.ofText_of_within (by decide +kernel), hlexed.1, hlexed.2.1, hlexed.2.2]
    simp [Parsed.ofTokens, Parse.query, beginsCall, call_eq, arguments_eq, argument_eq, depthCeiling,
      State.announce, opensParen, closesParen, separator, State.expectSeparator, isSeparator,
      synchronize, State.unexpected, State.report, callNode, Node.isInvalid, State.expectEnd]
  have hbind : (Outcome.ofText schema {} query).bindErrors =
      [.unknownField "height" ⟨3, 1, 4⟩] := by
    rw [Outcome.ofText, hread]
    rfl
  obtain ⟨⟨full, form, hfull, hform, hmessages, hall, _⟩, _, hruns⟩ :=
    Check.modes_agree hschema {} query none
  rw [hread] at hmessages
  rw [hbind] at hall
  obtain ⟨_, _, hquiet⟩ := hruns Id env _ c hcommand
  obtain ⟨hrun, hdecisive⟩ := hquiet fun e => LogEvent.upTo_warn_of_isDetail
  exact ⟨hschema, hcommand, ⟨full, form, hfull, hform, hmessages, hall⟩, hrun, hdecisive _⟩

open CommandLine Grammar in
/-- A query that is well formed, checked for its form with details shown: the check
succeeds, and still there is something on the error output. -/
theorem Check.noted_of_debug :
    let args := ["check", "--syntax-only", "eq(a,1)"]
    let env : Environment Id :=
      { standardInput := .ok "", fileText := fun _ => .error .notText, shows := LogEvent.upTo .debug }
    (∃ c, CommandLine.read args = some (.check c)) ∧
    CommandLine.run env args = (⟨0, "Syntax is valid\n",
      "DEBUG callq::query: parsed query tokens=6 lex_errors=0 parse_errors=0\n"⟩ : Result) ∧
    ¬Result.IsDecisive (CommandLine.run env args) := by
  intro args env
  let query := "eq(a,1)"
  let c : CheckCommand := ⟨query, .nowhere, false, true, {}⟩
  have hcommand : CommandLine.read args = some (.check c) := by
    unfold args c query
    rfl
  let token (kind : Token.Kind) (lexeme : String) (i : Nat) : Token := ⟨kind, lexeme, ⟨i, 1, i + 1⟩⟩
  let head := token (.operator (.compare .eq)) "eq" 0
  let field := token (.identifier "a") "a" 3
  let value := token (.number ⟨1, 0, by decide, by decide⟩) "1" 5
  have htokens : (Lexed.ofText query).tokens = [head, token .openParen "(" 2, field,
      token .comma "," 4, value, token .closeParen ")" 6] := by decide +kernel
  have hsentence : Expression (Lexed.ofText query).tokens
      (.call head [.word field, .word value]) := by
    rw [htokens]
    exact .comparison rfl rfl rfl rfl rfl rfl
  have hread : Syntactic.ofText {} query =
      ⟨some (Phrase.call head [.word field, .word value]).node, [], []⟩ :=
    Syntactic.ofText_of_sentence (by decide) (by decide +kernel) hsentence (by decide) rfl
  have hevents : (c.events (.ok none)).filter env.shows =
      [⟨.debug, "callq::query", "parsed query",
        [("tokens", "6"), ("lex_errors", "0"), ("parse_errors", "0")]⟩] := by
    have hwithin : ¬query.utf8ByteSize > ({} : Limits).maxInputLength := by decide +kernel
    show (Syntactic.events {} query).filter env.shows = _
    rw [Syntactic.events, if_neg hwithin, hread, htokens]
    have hsix : Nat.repr 6 = "6" := by decide
    have hzero : Nat.repr 0 = "0" := by decide
    -- all other notes are of tokens, and these are not shown
    simp [env, Token.event, LogEvent.upTo, LogLevel.rank, hsix, hzero]
  have hresult : c.result (.ok none) = .ofOutput "Syntax is valid\n" := by
    show Result.ofAnswer false (.ok (answerSyntax {} query)) = _
    rw [answerSyntax, hread]
    rfl
  have hlines : env.log (c.events (.ok none)) =
      "DEBUG callq::query: parsed query tokens=6 lex_errors=0 parse_errors=0\n" := by
    rw [Environment.log, hevents]
    rfl
  have hrun : CommandLine.run env args = (⟨0, "Syntax is valid\n",
      "DEBUG callq::query: parsed query tokens=6 lex_errors=0 parse_errors=0\n"⟩ : Result) := by
    rw [CommandLine.run_of_check env hcommand]
    show (c.result (.ok none)).behind (env.log (c.events (.ok none))) = _
    rw [hresult, hlines]
    rfl
  refine ⟨⟨c, hcommand⟩, hrun, ?_⟩
  rw [hrun]
  rintro (⟨_, _, hempty⟩ | ⟨hcode, _⟩)
  · exact absurd hempty (by decide)
  · exact absurd hcode (by decide)

end FilterQuery
