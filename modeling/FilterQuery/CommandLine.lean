/-
FilterQuery.CommandLine — the commands and how they are given.

A command line names a command, `check`, `operators` or `docs`, and then
its options and arguments. Options may stand before or behind the query.
A long option takes its value behind an equals sign or as the next
argument; the short options may be run together, and a value may follow
the last of them directly. An argument that begins with a hyphen is an
option unless it stands behind `--` or is a hyphen alone, and so is never
the value of the option before it. No option may be given twice.

`run` is written over any monad that can read the standard input and
files, so that it does the same to real files and to given texts.

What a check notes of its work (`Check.events`) goes to the error output, in
front of its messages, as far as the surroundings ask for it. Unless they
say otherwise, only warnings and what is worse are shown.
-/
import FilterQuery.Log
import FilterQuery.Reference

namespace FilterQuery

namespace CommandLine

/-- The arguments of the command `check`. -/
structure CheckArguments where
  query : Option String := none
  schema : Option String := none
  schemaFile : Option String := none
  pretty : Bool := false
  syntaxOnly : Bool := false
  maxDepth : Option Nat := none
  maxInputLength : Option Nat := none
deriving DecidableEq, Repr

/-- Where the schema of a check comes from. -/
inductive SchemaSource where
  | given (text : String)
  | file (path : String)
  | standardInput
  | nowhere
deriving DecidableEq, Repr

/-- A complete `check` command. -/
structure CheckCommand where
  query : String
  source : SchemaSource
  pretty : Bool
  syntaxOnly : Bool
  limits : Limits
deriving Repr

/-- A command. -/
inductive Command where
  | check (c : CheckCommand)
  | operators
  | docs
  | version
  | help
deriving Repr

/-! ## Options of `check` -/

/-- An option of `check`. -/
inductive CheckOption where
  | schema
  | schemaFile
  | pretty
  | syntaxOnly
  | maxDepth
  | maxInputLength
  | help
deriving DecidableEq, Repr

/-- The option of a long name. -/
def longOption? (name : String) : Option CheckOption :=
  if name = "schema" then some .schema
  else if name = "schema-file" then some .schemaFile
  else if name = "pretty" then some .pretty
  else if name = "syntax-only" then some .syntaxOnly
  else if name = "max-depth" then some .maxDepth
  else if name = "max-input-len" then some .maxInputLength
  else if name = "help" then some .help
  else none

/-- The option of a letter. -/
def shortOption? : Char → Option CheckOption
  | 's' => some .schema
  | 'p' => some .pretty
  | 'h' => some .help
  | _ => none

/-- Whether an option takes a value. -/
def CheckOption.takesValue : CheckOption → Bool
  | schema | schemaFile | maxDepth | maxInputLength => true
  | pretty | syntaxOnly | help => false

/-- A number of 64 bits; a plus sign may stand before it. -/
def readCount (s : String) : Option Nat :=
  let ds := match s.toList with
    | '+' :: rest => rest
    | cs => cs
  if ds.isEmpty ∨ !ds.all Char.isDigit ∨ 18446744073709551615 < natOfDigits ds then none
  else some (natOfDigits ds)

/-- A value that is given once. -/
def once {α : Type} (old : Option α) (new : α) : Option (Option α) :=
  match old with
  | none => some (some new)
  | some _ => none

namespace CheckArguments

/-- Set an option that takes a value. -/
def setValue (a : CheckArguments) (o : CheckOption) (v : String) : Option CheckArguments :=
  match o with
  | .schema => (once a.schema v).map fun x => { a with schema := x }
  | .schemaFile => (once a.schemaFile v).map fun x => { a with schemaFile := x }
  | .maxDepth => do
    let n ← readCount v
    (once a.maxDepth n).map fun x => { a with maxDepth := x }
  | .maxInputLength => do
    let n ← readCount v
    (once a.maxInputLength n).map fun x => { a with maxInputLength := x }
  | _ => none

/-- Set an option that takes no value. -/
def setFlag (a : CheckArguments) (o : CheckOption) : Option CheckArguments :=
  match o with
  | .pretty => if a.pretty then none else some { a with pretty := true }
  | .syntaxOnly => if a.syntaxOnly then none else some { a with syntaxOnly := true }
  | _ => none

/-- Set the query. -/
def setQuery (a : CheckArguments) (q : String) : Option CheckArguments :=
  (once a.query q).map fun x => { a with query := x }

/-- The command that the arguments make up. -/
def command? (a : CheckArguments) : Option CheckCommand := do
  let query ← a.query
  let source ← match a.schema, a.schemaFile with
    | some _, some _ => none
    | some text, none => some (SchemaSource.given text)
    | none, some path => some (.file path)
    | none, none => some (if a.syntaxOnly then .nowhere else .standardInput)
  return {
    query, source
    pretty := a.pretty
    syntaxOnly := a.syntaxOnly
    limits :=
      { maxDepth := a.maxDepth.getD ({} : Limits).maxDepth
        maxInputLength := a.maxInputLength.getD ({} : Limits).maxInputLength } }

end CheckArguments

/-- Whether an argument is an option and not a value. -/
def isOption (s : String) : Bool :=
  match s.toList with
  | '-' :: _ :: _ => true
  | _ => false

/-- Where reading the arguments of `check` stands. -/
inductive Step where
  | next (a : CheckArguments)
  /-- The next argument is the value of an option. -/
  | awaiting (a : CheckArguments) (o : CheckOption)
  | help
  | wrong
deriving Repr

/-- A step that may have failed. -/
def Step.ofOption : Option CheckArguments → Step
  | some a => .next a
  | none => .wrong

/-- Take a long option, given without its two hyphens. -/
def takeLong (a : CheckArguments) (body : List Char) : Step :=
  let name := String.ofList (body.takeWhile (· != '='))
  let value? : Option String :=
    match body.dropWhile (· != '=') with
    | _ :: v => some (String.ofList v)
    | [] => none
  match longOption? name, value? with
  | none, _ => .wrong
  | some .help, none => .help
  | some o, none => if o.takesValue then .awaiting a o else .ofOption (a.setFlag o)
  | some o, some v => if o.takesValue then .ofOption (a.setValue o v) else .wrong

/-- Take short options that are run together. -/
def takeShort (a : CheckArguments) : List Char → Step
  | [] => .next a
  | c :: cs =>
    match shortOption? c with
    | none => .wrong
    | some .help => .help
    | some o =>
      if o.takesValue then
        match cs with
        | [] => .awaiting a o
        | '=' :: v => .ofOption (a.setValue o (String.ofList v))
        | v => .ofOption (a.setValue o (String.ofList v))
      else
        match a.setFlag o with
        | some a => takeShort a cs
        | none => .wrong

/-- Take one argument in front of `--`. -/
def takeArgument (a : CheckArguments) (arg : String) : Step :=
  match arg.toList with
  | '-' :: '-' :: body => takeLong a body
  | '-' :: c :: cs => takeShort a (c :: cs)
  | _ => .ofOption (a.setQuery arg)

/-- Take the arguments of `check` one after the other. -/
def takeArguments (step : Step) : List String → Step
  | [] =>
    match step with
    | .awaiting _ _ => .wrong
    | step => step
  | arg :: rest =>
    match step with
    | .help => .help
    | .wrong => .wrong
    | .awaiting a o =>
      if isOption arg then .wrong else takeArguments (.ofOption (a.setValue o arg)) rest
    | .next a =>
      if arg = "--" then
        .ofOption (rest.foldlM CheckArguments.setQuery a)
      else takeArguments (takeArgument a arg) rest

/-! ## Commands -/

/-- The command `check` with its arguments. -/
def readCheck (args : List String) : Option Command :=
  match takeArguments (.next {}) args with
  | .next a => a.command?.map .check
  | .help => some .help
  | _ => none

/-- A command that takes no arguments. -/
def readBare (command : Command) (args : List String) : Option Command :=
  match args with
  | [] => some command
  | arg :: rest =>
    match arg.toList with
    | ['-', '-'] => if rest.isEmpty then some command else none
    | '-' :: 'h' :: _ => some .help
    | _ => if arg = "--help" then some .help else none

/-- The names of the commands. -/
def commandNames : List String := ["check", "operators", "docs", "help"]

/-- The command of a command line, if it makes up one. -/
def read (args : List String) : Option Command :=
  match args with
  | [] => none
  | arg :: rest =>
    if arg = "check" then readCheck rest
    else if arg = "operators" then readBare .operators rest
    else if arg = "docs" then readBare .docs rest
    else if arg = "help" then
      match rest with
      | [] => some .help
      | [topic] => if commandNames.contains topic then some .help else none
      | _ => none
    else if arg = "--version" then some .version
    else if arg = "--help" then some .help
    else
      match arg.toList with
      | '-' :: 'V' :: _ => some .version
      | '-' :: 'h' :: _ => some .help
      | _ => none

/-! ## Running -/

/-- What a run leaves behind. -/
structure Result where
  exitCode : Nat
  stdout : String
  stderr : String
deriving DecidableEq, Repr

/-- Why a file cannot be read. -/
inductive FileError where
  /-- The system refuses; it has words and a number for the reason. -/
  | system (words : String) (number : Nat)
  /-- What the file holds is not UTF-8. -/
  | notText
deriving DecidableEq, Repr

/-- The message of the error. -/
def FileError.message : FileError → String
  | system words number => words ++ " (os error " ++ toString number ++ ")"
  | notText => "stream did not contain valid UTF-8"

/-- What a run can read, and what becomes of its notes. -/
structure Environment (m : Type → Type) [Monad m] where
  standardInput : m (Except FileError String)
  fileText : String → m (Except FileError String)
  /-- Whether the standard input is a terminal, which is not waited for. -/
  terminal : Bool := false
  /-- Whether a note is shown. -/
  shows : LogEvent → Bool := LogEvent.upTo .warn
  /-- What is written of a note that is shown; it may hold the time, for example. -/
  lineOf : LogEvent → m String := fun e => return e.text ++ "\n"

/-- What is written of some notes: of those that are shown, one after the other. -/
def Environment.log {m : Type → Type} [Monad m] (env : Environment m)
    (events : List LogEvent) : m String :=
  return String.join (← (events.filter env.shows).mapM env.lineOf)

namespace Result

/-- A run that succeeds with an output. -/
def ofOutput (out : String) : Result := ⟨0, out, ""⟩

/-- A run that fails with some messages. -/
def ofMessages (messages : List String) : Result :=
  ⟨1, "", String.join (messages.map (· ++ "\n"))⟩

/-- The same, with some lines in front of the messages. -/
def behind (lines : String) (r : Result) : Result := { r with stderr := lines ++ r.stderr }

/-- The answer to a check. -/
def ofAnswer (pretty : Bool) : Except Check.Failure Check.Answer → Result
  | .ok .syntaxValid => ofOutput "Syntax is valid\n"
  | .ok (.success json) => ofOutput ((if pretty then json.pretty else json.compact) ++ "\n")
  | .ok (.invalid messages _) => ofMessages messages
  | .error e => ofMessages [e.message]

end Result

/-- The version of the program. -/
def versionText : String := "callq 0.1.0\n"

/-- A short help. It stands for the text that the program has its reader of command
lines put together, in the words and the layout of that reader. -/
def helpText : String :=
  String.join
    ["Usage: callq <COMMAND>\n",
     "\n",
     "  check <QUERY>  read a query and bind it to a schema\n",
     "                   -s, --schema <JSON>    --schema-file <PATH>\n",
     "                   -p, --pretty           --syntax-only\n",
     "                   --max-depth <N>        --max-input-len <N>\n",
     "  operators      list the operators\n",
     "  docs           describe the language\n"]

/-- Read the schema of a check. -/
def readSchema {m : Type → Type} [Monad m] (env : Environment m) :
    SchemaSource → m (Except FileError (Option String))
  | .given text => return .ok (some text)
  | .nowhere => return .ok none
  | .file path => do return (← env.fileText path).map some
  | .standardInput =>
    if env.terminal then return .ok none else do return (← env.standardInput).map some

namespace CheckCommand

/-- What is to be checked, with the schema that was read for it. -/
def check (c : CheckCommand) (schema : Option String) : Check :=
  { query := c.query, schema, syntaxOnly := c.syntaxOnly, limits := c.limits }

/-- What a check leaves behind, given the schema that was read for it. -/
def result (c : CheckCommand) : Except FileError (Option String) → Result
  | .error e => .ofMessages ["IO error: " ++ e.message]
  | .ok schema => .ofAnswer c.pretty (c.check schema).run

/-- What a check notes, given the schema that was read for it. -/
def events (c : CheckCommand) : Except FileError (Option String) → List LogEvent
  | .error _ => []
  | .ok schema => (c.check schema).events

end CheckCommand

/-- Run a check. -/
def runCheck {m : Type → Type} [Monad m] (env : Environment m) (c : CheckCommand) :
    m Result := do
  let reading ← readSchema env c.source
  let lines ← env.log (c.events reading)
  return (c.result reading).behind lines

/-- Run the program. -/
def run {m : Type → Type} [Monad m] (env : Environment m) (args : List String) : m Result :=
  match read args with
  | some (.check c) => runCheck env c
  | some .operators => return .ofOutput Reference.operatorTable
  | some .docs => return .ofOutput Reference.overview
  | some .version => return .ofOutput versionText
  | some .help => return .ofOutput helpText
  | none => return ⟨2, "", helpText⟩

end CommandLine

end FilterQuery
