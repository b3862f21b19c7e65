/-
FilterQuery.Token.Run — a query text cut into runs.

Every text is a sequence of runs, one after the other with nothing in
between: a stretch of blanks, a token, or something the language has no
token for. There are three of the last sort: a character that begins no
token, a numeral whose value is out of range, and a string literal that
is never closed, which takes the rest of the text.

`readRun` reads one run; it takes at least one character and gives all
of them back as the run's source (`readRun_source`). So the runs of a text
concatenate to the text, and each run's position is that of the text
before it. Tokens and lexical errors are read off the runs.
-/
import FilterQuery.Token.Basic
import FilterQuery.Text.Character
import FilterQuery.Text.Quoted

namespace FilterQuery

/-- What cannot be read as a token. -/
inductive LexError where
  | illegalCharacter (c : Char) (position : Position)
  /-- Reported at the opening quote. -/
  | unterminatedString (position : Position)
  /-- Reported at the backslash. -/
  | invalidEscape (c : Char) (position : Position)
  | numberOutOfRange (lexeme : String) (position : Position)
  /-- The text is longer than allowed and was not read at all. -/
  | inputTooLong (length limit : Nat)
deriving DecidableEq, Repr

namespace LexError

/-- Where the error is reported. -/
def position : LexError → Position
  | illegalCharacter _ p => p
  | unterminatedString p => p
  | invalidEscape _ p => p
  | numberOutOfRange _ p => p
  | inputTooLong _ _ => .start

/-- The message of the error. -/
def message : LexError → String
  | illegalCharacter c p => "illegal character '" ++ String.singleton c ++ "' at " ++ p.text
  | unterminatedString p => "unterminated string literal starting at " ++ p.text
  | invalidEscape c p =>
    "invalid escape sequence '\\" ++ String.singleton c ++ "' at " ++ p.text
  | numberOutOfRange lexeme p =>
    "number '" ++ lexeme ++ "' at " ++ p.text ++ " is out of range"
  | inputTooLong length limit =>
    "query is " ++ toString length ++ " bytes long, exceeding the limit of " ++
      toString limit ++ " bytes"

end LexError

/-- A stretch of a query text. -/
inductive Run where
  | blank (source : List Char)
  | token (t : Token) (badEscapes : List (Char × Position))
  | illegal (c : Char) (position : Position)
  | outOfRange (source : List Char) (position : Position)
  | unclosed (source : List Char) (position : Position) (badEscapes : List (Char × Position))
deriving Repr

namespace Run

/-- The text of a run. -/
def source : Run → List Char
  | blank cs => cs
  | token t _ => t.lexeme.toList
  | illegal c _ => [c]
  | outOfRange cs _ => cs
  | unclosed cs _ _ => cs

/-- The token of a run, if it is one. -/
def token? : Run → Option Token
  | token t _ => some t
  | _ => none

/-- The errors reported for a run, in the order in which they are found:
what is wrong inside a literal before the literal itself. -/
def errors : Run → List LexError
  | blank _ => []
  | token _ bad => bad.map fun (c, p) => .invalidEscape c p
  | illegal c p => [.illegalCharacter c p]
  | outOfRange cs p => [.numberOutOfRange (String.ofList cs) p]
  | unclosed _ p bad => (bad.map fun (c, p) => .invalidEscape c p) ++ [.unterminatedString p]

end Run

/-- Read a string literal whose opening quote `q` stands at `p`. -/
def readString (p : Position) (q : Char) (cs : List Char) : Run × List Char :=
  match Quoted.scan q [] cs with
  | .closed ps rest =>
    (.token ⟨.string (Quoted.value ps), String.ofList (q :: Quoted.source ps ++ [q]), p⟩
      (Quoted.badEscapes (p.advance q) ps), rest)
  | .unclosed ps left =>
    (.unclosed (q :: Quoted.source ps ++ left) p (Quoted.badEscapes (p.advance q) ps), [])

/-- The run of a numeral that stands at `p`. -/
def numeralRun (p : Position) (n : Numeral) : Run :=
  match Decimal.ofNumeral? n with
  | some d => .token ⟨.number d, String.ofList n.source, p⟩ []
  | none => .outOfRange n.source p

/-- Read a word whose first character `c` stands at `p`. -/
def readWord (p : Position) (c : Char) (cs : List Char) : Run × List Char :=
  let word := String.ofList (c :: cs.takeWhile isNameRest)
  (.token ⟨.ofWord word, word, p⟩ [], cs.dropWhile isNameRest)

/-- Read one run from a text whose first character `c` stands at `p`. -/
def readRun (p : Position) (c : Char) (cs : List Char) : Run × List Char :=
  if isBlank c then (.blank (c :: cs.takeWhile isBlank), cs.dropWhile isBlank)
  else if c = '(' then (.token ⟨.openParen, "(", p⟩ [], cs)
  else if c = ')' then (.token ⟨.closeParen, ")", p⟩ [], cs)
  else if c = ',' then (.token ⟨.comma, ",", p⟩ [], cs)
  else if c = '"' ∨ c = '\'' then readString p c cs
  else
    match Numeral.scan (c :: cs) with
    | some (n, rest) => (numeralRun p n, rest)
    | none => if isNameStart c then readWord p c cs else (.illegal c p, cs)

theorem readString_source (p : Position) (q : Char) (cs : List Char) :
    (readString p q cs).1.source ++ (readString p q cs).2 = q :: cs := by
  unfold readString
  split
  · next ps rest h =>
    have := Quoted.scan_closed h
    simp only [Quoted.source, List.reverse_nil, List.flatMap_nil, List.nil_append] at this
    simp [Run.source, String.toList_ofList, Quoted.source, this]
  · next ps left h =>
    have := Quoted.scan_unclosed h
    simp only [Quoted.source, List.reverse_nil, List.flatMap_nil, List.nil_append] at this
    simp [Run.source, Quoted.source, this]

theorem numeralRun_source (p : Position) (n : Numeral) : (numeralRun p n).source = n.source := by
  unfold numeralRun
  split <;> simp [Run.source]

theorem readWord_source (p : Position) (c : Char) (cs : List Char) :
    (readWord p c cs).1.source ++ (readWord p c cs).2 = c :: cs := by
  simp [readWord, Run.source, List.takeWhile_append_dropWhile]

/-- A run and the text after it make up the text that was read. -/
theorem readRun_source (p : Position) (c : Char) (cs : List Char) :
    (readRun p c cs).1.source ++ (readRun p c cs).2 = c :: cs := by
  unfold readRun
  split
  · simp [Run.source, List.takeWhile_append_dropWhile]
  split
  · next h => simp [Run.source, h]
  split
  · next h => simp [Run.source, h]
  split
  · next h => simp [Run.source, h]
  split
  · exact readString_source p c cs
  split
  · next n rest h =>
    simpa [numeralRun_source] using Numeral.scan_source h
  split
  · exact readWord_source p c cs
  · simp [Run.source]

theorem readString_length (p : Position) (q : Char) (cs : List Char) :
    (readString p q cs).2.length ≤ cs.length := by
  unfold readString
  split
  · next ps rest h =>
    have := congrArg List.length (Quoted.scan_closed h)
    simp [Quoted.source] at this
    simp
    omega
  · simp

/-- A run takes at least one character. -/
theorem readRun_length (p : Position) (c : Char) (cs : List Char) :
    (readRun p c cs).2.length < (c :: cs).length := by
  have hd : ∀ f : Char → Bool, (cs.dropWhile f).length ≤ cs.length := fun f =>
    (List.dropWhile_sublist f).length_le
  unfold readRun
  split
  · exact Nat.lt_succ_of_le (hd isBlank)
  split
  · simp
  split
  · simp
  split
  · simp
  split
  · exact Nat.lt_succ_of_le (readString_length p c cs)
  split
  · next h => exact Numeral.scan_length_lt h
  split
  · exact Nat.lt_succ_of_le (hd isNameRest)
  · simp

/-- The runs of a text that begins at `p`. `done` holds the runs before
it, latest first. -/
def runsFrom (done : List Run) (p : Position) (text : List Char) : List Run :=
  match text with
  | [] => done.reverse
  | c :: cs =>
    let r := readRun p c cs
    runsFrom (r.1 :: done) (p.after r.1.source) r.2
termination_by text.length
decreasing_by exact readRun_length p c cs

/-- The runs of a text. -/
def runs (text : List Char) : List Run := runsFrom [] .start text

/-- The runs read before have no influence on the runs read next. -/
theorem runsFrom_eq_append (done : List Run) (p : Position) (text : List Char) :
    runsFrom done p text = done.reverse ++ runsFrom [] p text := by
  match text with
  | [] => simp [runsFrom]
  | c :: cs =>
    rw [runsFrom, runsFrom_eq_append (_ :: done)]
    conv => rhs; rw [runsFrom, runsFrom_eq_append [_]]
    simp
termination_by text.length
decreasing_by all_goals exact readRun_length p c cs

theorem runsFrom_nil (p : Position) : runsFrom [] p [] = [] := by simp [runsFrom]

/-- The runs of a text are its first run and the runs of what is left. -/
theorem runsFrom_cons (p : Position) (c : Char) (cs : List Char) :
    runsFrom [] p (c :: cs) = (readRun p c cs).1 ::
      runsFrom [] (p.after (readRun p c cs).1.source) (readRun p c cs).2 := by
  rw [runsFrom, runsFrom_eq_append [_]]
  simp

/-- What reading a text gives: its tokens, the errors found on the way, and
the position just past its last character. -/
structure Lexed where
  tokens : List Token
  errors : List LexError
  stop : Position
deriving Repr

namespace Lexed

/-- Read a whole text, however long it is. -/
def ofText (text : String) : Lexed :=
  let rs := runs text.toList
  { tokens := rs.filterMap Run.token?
    errors := rs.flatMap Run.errors
    stop := Position.start.after text.toList }

/-- Read a text of at most `limit` bytes; a longer one is refused unread. -/
def ofBoundedText (limit : Nat) (text : String) : Lexed :=
  if text.utf8ByteSize > limit then
    { tokens := [], errors := [.inputTooLong text.utf8ByteSize limit], stop := .start }
  else ofText text

/-- Ask for tokens one at a time, `n` times: the answers, which are `none`
once the tokens have run out, and the tokens left. -/
def pull (lexed : Lexed) (n : Nat) : List (Option Token) × List Token :=
  ((List.range n).map fun i => lexed.tokens[i]?, lexed.tokens.drop n)

end Lexed

end FilterQuery
