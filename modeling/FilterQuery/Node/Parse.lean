/-
FilterQuery.Node.Parse — reading a call tree from tokens.

The grammar:

    expression := (OPERATOR | IDENTIFIER) '(' (argument (',' argument)*)? ')'
    argument   := expression | IDENTIFIER | NUMBER | STRING | BOOLEAN | NULL

An operator word always begins a call; any other name begins one only
where an opening parenthesis follows it, and such a call is reported,
since the vocabulary of operators is closed.

## Mistakes

Reading never stops at a mistake. After an argument that cannot be read,
or that is followed by something other than a separator, tokens are
skipped up to the next comma or closing parenthesis of the same nesting
(`synchronize`), and the arguments after it are read as if nothing had
happened. A call nested too deep is skipped as a whole (`skipBalanced`),
and only the first one is reported.

## Why it ends

An argument may take no token at all (`f(,a)`), but the separator after
it does, and a nested call begins behind its head. Every function
therefore returns its rest together with the proof that it is no longer
than what it was given.
-/
import FilterQuery.Limits
import FilterQuery.Node.Basic

namespace FilterQuery

namespace Parse

/-- What the grammar asks for at a token. -/
inductive Expected where
  | operatorCall
  | openParen
  | argument
  | separator
  | closeParen
deriving DecidableEq, Repr

/-- The words for it in messages. -/
def Expected.text : Expected → String
  | operatorCall => "an operator call"
  | openParen => "'('"
  | argument => "an argument"
  | separator => "',' or ')'"
  | closeParen => "')'"

end Parse

/-- A mistake in the form of a query. -/
inductive SyntaxError where
  | unexpectedToken (expected : Parse.Expected) (found : Token.Kind) (position : Position)
  | unexpectedEnd (expected : Parse.Expected) (position : Position)
  | missingArgument (position : Position)
  | unknownOperator (name : String) (position : Position)
  | trailingInput (found : Token.Kind) (position : Position)
  | nestingTooDeep (limit : Nat) (position : Position)
deriving DecidableEq, Repr

namespace SyntaxError

/-- Where the error is reported. -/
def position : SyntaxError → Position
  | unexpectedToken _ _ p => p
  | unexpectedEnd _ p => p
  | missingArgument p => p
  | unknownOperator _ p => p
  | trailingInput _ p => p
  | nestingTooDeep _ p => p

/-- The message of the error. -/
def message : SyntaxError → String
  | unexpectedToken expected found p =>
    "expected " ++ expected.text ++ ", found " ++ found.text ++ " at " ++ p.text
  | unexpectedEnd expected p =>
    "expected " ++ expected.text ++ ", found end of input at " ++ p.text
  | missingArgument p => "missing argument at " ++ p.text
  | unknownOperator name p => "unknown operator '" ++ name ++ "' at " ++ p.text
  | trailingInput found p => "unexpected trailing input " ++ found.text ++ " at " ++ p.text
  | nestingTooDeep limit p =>
    "calls nested deeper than " ++ toString limit ++ " levels at " ++ p.text

end SyntaxError

namespace Parse

/-- What stays the same while a query is read: the number of calls that
may be nested, and the position of the end of the text. -/
structure Bounds where
  limit : Nat
  stop : Position
deriving Repr

/-- The tokens still ahead, the errors so far, latest first, and whether
the nesting limit has been reported. -/
structure State where
  rest : List Token
  errors : List SyntaxError
  cut : Bool
deriving Repr

namespace State

/-- Add an error. -/
def report (s : State) (e : SyntaxError) : State := { s with errors := e :: s.errors }

/-- Report that the current token, or the end of the text, is not what the
grammar asks for. -/
def unexpected (s : State) (b : Bounds) (expected : Expected) : State :=
  match s.rest with
  | t :: _ => s.report (.unexpectedToken expected t.kind t.position)
  | [] => s.report (.unexpectedEnd expected b.stop)

@[simp] theorem report_rest (s : State) (e : SyntaxError) : (s.report e).rest = s.rest := rfl

@[simp] theorem unexpected_rest (s : State) (b : Bounds) (x : Expected) :
    (s.unexpected b x).rest = s.rest := by
  unfold unexpected
  split <;> rfl

end State

/-! ## Skipping -/

/-- The tokens from the next comma or closing parenthesis on that stands
outside all parentheses opened on the way. `depth` of them are open. -/
def synchronize (depth : Nat) : List Token → List Token
  | [] => []
  | t :: ts =>
    match t.kind, depth with
    | .openParen, _ => synchronize (depth + 1) ts
    | .closeParen, 0 => t :: ts
    | .closeParen, d + 1 => synchronize d ts
    | .comma, 0 => t :: ts
    | _, _ => synchronize depth ts

/-- The tokens behind the parenthesis that closes the group which the
current token opens. `depth` parentheses are open. -/
def skipBalanced (depth : Nat) : List Token → List Token
  | [] => []
  | t :: ts =>
    match t.kind with
    | .openParen => skipBalanced (depth + 1) ts
    | .closeParen => if depth ≤ 1 then ts else skipBalanced (depth - 1) ts
    | _ => skipBalanced depth ts

theorem synchronize_length (depth : Nat) (ts : List Token) :
    (synchronize depth ts).length ≤ ts.length := by
  fun_induction synchronize depth ts <;> grind

theorem skipBalanced_length (depth : Nat) (ts : List Token) :
    (skipBalanced depth ts).length ≤ ts.length := by
  fun_induction skipBalanced depth ts <;> grind

/-! ## Arguments and calls -/

/-- Whether the first of some tokens is an opening parenthesis. -/
def opensParen : List Token → Bool
  | t :: _ => t.kind == .openParen
  | [] => false

/-- Whether the first of some tokens is a closing parenthesis. -/
def closesParen : List Token → Bool
  | t :: _ => t.kind == .closeParen
  | [] => false

theorem tail_length_of_opensParen {ts : List Token} (h : opensParen ts = true) :
    ts.tail.length < ts.length := by
  cases ts with
  | nil => simp [opensParen] at h
  | cons t ts => simp

/-- Whether a token, with the given tokens behind it, begins a call. -/
def beginsCall (t : Token) (behind : List Token) : Bool :=
  match t.kind with
  | .operator _ => true
  | .identifier _ => opensParen behind
  | _ => false

/-- Report the head of a call that names no operator. -/
def State.announce (s : State) (head : Token) : State :=
  match head.kind with
  | .identifier name => s.report (.unknownOperator name head.position)
  | _ => s

@[simp] theorem State.announce_rest (s : State) (head : Token) :
    (s.announce head).rest = s.rest := by
  unfold State.announce
  split <;> rfl

/-- Report the nesting limit, unless it has been reported before. -/
def State.reportDepth (s : State) (b : Bounds) (p : Position) : State :=
  if s.cut then s
  else { s.report (.nestingTooDeep b.limit p) with cut := true }

@[simp] theorem State.reportDepth_rest (s : State) (b : Bounds) (p : Position) :
    (s.reportDepth b p).rest = s.rest := by
  unfold State.reportDepth
  split <;> rfl

/-- The node of a call, which is only kept if its head is an operator. -/
def callNode (head : Token) (args : List Node) : Node :=
  match head.kind with
  | .operator op => .call op args head.position
  | _ => .invalid head.position

/-- Whether a token separates arguments or ends them. -/
def isSeparator (t : Token) : Bool := t.kind == .comma || t.kind == .closeParen

/-- Report the current token if it stands where only a separator may. -/
def State.expectSeparator (s : State) (b : Bounds) : State :=
  match s.rest with
  | t :: _ => if isSeparator t then s else s.unexpected b .separator
  | [] => s

@[simp] theorem State.expectSeparator_rest (s : State) (b : Bounds) :
    (s.expectSeparator b).rest = s.rest := by
  unfold State.expectSeparator
  split
  · split <;> simp
  · rfl

/-- Read what follows an argument, up to and including the separator. The
answer is whether another argument follows. -/
def separator (b : Bounds) (s : State) : Bool × State :=
  let s := s.expectSeparator b
  match synchronize 0 s.rest with
  | [] => (false, { s with rest := [] }.unexpected b .closeParen)
  | t :: ts => (t.kind == .comma, { s with rest := ts })

theorem separator_length (b : Bounds) (s : State) (h : (separator b s).1 = true) :
    (separator b s).2.rest.length < s.rest.length := by
  have hl := synchronize_length 0 s.rest
  unfold separator at h ⊢
  simp only [State.expectSeparator_rest] at h ⊢
  split at h
  · simp at h
  · next heq => simp only [heq, List.length_cons] at hl ⊢; omega

theorem separator_length_le (b : Bounds) (s : State) :
    (separator b s).2.rest.length ≤ s.rest.length := by
  have hl := synchronize_length 0 s.rest
  unfold separator
  simp only [State.expectSeparator_rest]
  split
  · simp
  · next heq => simp only [heq, List.length_cons] at hl ⊢; omega

mutual

/-- Read the argument list of a call whose head has been read. `depth` is
the number of calls around it. -/
def callBelow (b : Bounds) (depth : Nat) (head : Token) (s : State) :
    { r : Node × State // r.2.rest.length ≤ s.rest.length } :=
  let s' := s.announce head
  if _h : opensParen s.rest = true then
    if b.limit ≤ depth then
      ⟨(.invalid head.position,
        { s'.reportDepth b head.position with rest := skipBalanced 0 s.rest }),
        skipBalanced_length 0 s.rest⟩
    else if closesParen s.rest.tail then
      ⟨(callNode head [], { s' with rest := s.rest.tail.tail }), by simp; omega⟩
    else
      let r := argumentsBelow b depth [] { s' with rest := s.rest.tail }
      ⟨(callNode head r.1.1, r.1.2), Nat.le_trans r.2 (by simp)⟩
  else ⟨(.invalid head.position, s'.unexpected b .openParen), by simp [s']⟩
termination_by (s.rest.length, 0)
decreasing_by exact Prod.Lex.left _ _ (tail_length_of_opensParen _h)

/-- Read one argument of a call that has `depth` calls around it. -/
def argumentBelow (b : Bounds) (depth : Nat) (s : State) :
    { r : Node × State // r.2.rest.length ≤ s.rest.length } :=
  match h : s.rest with
  | [] => ⟨(.invalid b.stop, s.unexpected b .argument), by simp [h]⟩
  | t :: ts =>
    match t.kind with
    | .operator _ =>
      let r := callBelow b (depth + 1) t { s with rest := ts }
      ⟨r.1, Nat.le_succ_of_le r.2⟩
    | .identifier name =>
      if opensParen ts then
        let r := callBelow b (depth + 1) t { s with rest := ts }
        ⟨r.1, Nat.le_succ_of_le r.2⟩
      else ⟨(.field name t.position, { s with rest := ts }), by simp⟩
    | .comma | .closeParen =>
      ⟨(.invalid t.position, s.report (.missingArgument t.position)), by simp [h]⟩
    | .openParen =>
      ⟨(.invalid t.position,
        { s.unexpected b .argument with rest := synchronize 0 (t :: ts) }),
        synchronize_length 0 (t :: ts)⟩
    | .number n => ⟨(.literal (.number n) t.position, { s with rest := ts }), by simp⟩
    | .string v => ⟨(.literal (.string v) t.position, { s with rest := ts }), by simp⟩
    | .boolean v => ⟨(.literal (.boolean v) t.position, { s with rest := ts }), by simp⟩
    | .null => ⟨(.literal .null t.position, { s with rest := ts }), by simp⟩
termination_by (s.rest.length, 1)
decreasing_by all_goals (simp only [h, List.length_cons]; apply Prod.Lex.left; simp)

/-- Read the remaining arguments of a call and its closing parenthesis.
`done` holds the arguments already read, latest first. -/
def argumentsBelow (b : Bounds) (depth : Nat) (done : List Node) (s : State) :
    { r : List Node × State // r.2.rest.length ≤ s.rest.length } :=
  let a := argumentBelow b depth s
  if _h : (separator b a.1.2).1 = true then
    let r := argumentsBelow b depth (a.1.1 :: done) (separator b a.1.2).2
    ⟨r.1, Nat.le_trans r.2 (Nat.le_trans (separator_length_le b a.1.2) a.2)⟩
  else
    ⟨((a.1.1 :: done).reverse, (separator b a.1.2).2),
      Nat.le_trans (separator_length_le b a.1.2) a.2⟩
termination_by (s.rest.length, 2)
decreasing_by
  · exact Prod.Lex.right _ (by decide)
  · exact Prod.Lex.left _ _ (Nat.lt_of_lt_of_le (separator_length b a.1.2 _h) a.2)

end

/-- The call with the given head, and the state behind it. -/
def call (b : Bounds) (depth : Nat) (head : Token) (s : State) : Node × State :=
  (callBelow b depth head s).1

/-- The next argument, and the state behind it. -/
def argument (b : Bounds) (depth : Nat) (s : State) : Node × State :=
  (argumentBelow b depth s).1

/-- The remaining arguments of a call, and the state behind its closing
parenthesis. -/
def arguments (b : Bounds) (depth : Nat) (done : List Node) (s : State) : List Node × State :=
  (argumentsBelow b depth done s).1

theorem argument_length (b : Bounds) (depth : Nat) (s : State) :
    (argument b depth s).2.rest.length ≤ s.rest.length := (argumentBelow b depth s).2

/-! ## The equations of the reader -/

theorem call_eq (b : Bounds) (depth : Nat) (head : Token) (s : State) :
    call b depth head s =
      let s' := s.announce head
      if opensParen s.rest then
        if b.limit ≤ depth then
          (.invalid head.position,
            { s'.reportDepth b head.position with rest := skipBalanced 0 s.rest })
        else if closesParen s.rest.tail then
          (callNode head [], { s' with rest := s.rest.tail.tail })
        else
          let r := arguments b depth [] { s' with rest := s.rest.tail }
          (callNode head r.1, r.2)
      else (.invalid head.position, s'.unexpected b .openParen) := by
  unfold call arguments
  rw [callBelow]
  dsimp only
  split
  · split
    · rfl
    · split <;> rfl
  · rfl

theorem argument_eq (b : Bounds) (depth : Nat) (s : State) :
    argument b depth s =
      match s.rest with
      | [] => (.invalid b.stop, s.unexpected b .argument)
      | t :: ts =>
        match t.kind with
        | .operator _ => call b (depth + 1) t { s with rest := ts }
        | .identifier name =>
          if opensParen ts then call b (depth + 1) t { s with rest := ts }
          else (.field name t.position, { s with rest := ts })
        | .comma | .closeParen =>
          (.invalid t.position, s.report (.missingArgument t.position))
        | .openParen =>
          (.invalid t.position,
            { s.unexpected b .argument with rest := synchronize 0 s.rest })
        | .number n => (.literal (.number n) t.position, { s with rest := ts })
        | .string v => (.literal (.string v) t.position, { s with rest := ts })
        | .boolean v => (.literal (.boolean v) t.position, { s with rest := ts })
        | .null => (.literal .null t.position, { s with rest := ts }) := by
  obtain ⟨rest, errors, cut⟩ := s
  unfold argument call
  rw [argumentBelow]
  match rest with
  | [] => rfl
  | ⟨.identifier name, _, _⟩ :: ts =>
    by_cases h : opensParen ts = true
    · simp only [h, if_true]
    · simp only [h]; rfl
  | ⟨.number _, _, _⟩ :: _ => rfl
  | ⟨.string _, _, _⟩ :: _ => rfl
  | ⟨.boolean _, _, _⟩ :: _ => rfl
  | ⟨.null, _, _⟩ :: _ => rfl
  | ⟨.operator _, _, _⟩ :: _ => rfl
  | ⟨.openParen, _, _⟩ :: _ => rfl
  | ⟨.closeParen, _, _⟩ :: _ => rfl
  | ⟨.comma, _, _⟩ :: _ => rfl

theorem arguments_eq (b : Bounds) (depth : Nat) (done : List Node) (s : State) :
    arguments b depth done s =
      let a := argument b depth s
      let next := separator b a.2
      if next.1 then arguments b depth (a.1 :: done) next.2
      else ((a.1 :: done).reverse, next.2) := by
  unfold arguments argument
  rw [argumentsBelow]
  simp only
  split <;> rfl

end Parse

/-- What reading a call tree gives. There is no tree if no call could be
formed at all. -/
structure Parsed where
  ast : Option Node
  errors : List SyntaxError
deriving Repr

namespace Parse

/-- Report the current token as standing behind the end of the query. -/
def State.expectEnd (s : State) : State :=
  match s.rest with
  | t :: _ => s.report (.trailingInput t.kind t.position)
  | [] => s

/-- Read exactly one call from a sequence of tokens. -/
def query (b : Bounds) (tokens : List Token) : Parsed :=
  match tokens with
  | t :: ts =>
    if beginsCall t ts then
      let (node, s) := call b 0 t ⟨ts, [], false⟩
      { ast := if node.isInvalid then none else some node
        errors := s.expectEnd.errors.reverse }
    else { ast := none, errors := [.unexpectedToken .operatorCall t.kind t.position] }
  | [] => { ast := none, errors := [.unexpectedEnd .operatorCall b.stop] }

end Parse

/-- Read a call tree from tokens. Calls may be nested `maxDepth` deep, but
never deeper than the ceiling; `stop` is the position of the end of the
text. -/
def Parsed.ofTokens (maxDepth : Nat) (tokens : List Token) (stop : Position) : Parsed :=
  Parse.query ⟨min maxDepth depthCeiling, stop⟩ tokens

end FilterQuery
