/-
FilterQuery.Proofs.Relocation — positions are copied and never looked at.

The steps behind the tokens carry positions along: a node has the
position of the token it begins with, an error that of a token, of a node
or of the end of the text. No step decides anything by a position. So
reading and binding commute with every map of positions, whatever it does
to them (`Parsed.ofTokens_relocate`, `Schema.bind_relocate`).

Two uses are made of this. A map that sends every position to one and the
same makes "up to positions" an equation. And a map that leaves alone the
positions with a property, and sends the others to one that has it, shows
that a property of the positions of all tokens is one of the positions of
all nodes and errors (`Parsed.everywhere`, `Schema.bind_everywhere`):
where the tokens are not moved, nothing that is made of them is.
-/
import FilterQuery.Proofs.Matching
import FilterQuery.Query

namespace FilterQuery

/-! ## 1. Moving tokens, trees and errors -/

variable (f : Position → Position)

/-- A token moved to where the map sends it. -/
def Token.relocate (t : Token) : Token := { t with position := f t.position }

namespace Node

mutual

/-- A tree with each of its nodes moved. -/
def relocate : Node → Node
  | call op args p => call op (relocateAll args) (f p)
  | field name p => field name (f p)
  | literal value p => literal value (f p)
  | invalid p => invalid (f p)

/-- The same for trees that stand side by side. -/
def relocateAll : List Node → List Node
  | [] => []
  | n :: ns => relocate n :: relocateAll ns

end

theorem relocateAll_eq_map (ns : List Node) : relocateAll f ns = ns.map (relocate f) := by
  induction ns with
  | nil => rfl
  | cons n ns ih => rw [relocateAll, ih, List.map_cons]

theorem relocate_call (op : Operator) (args : List Node) (p : Position) :
    relocate f (.call op args p) = .call op (args.map (relocate f)) (f p) := by
  rw [relocate, relocateAll_eq_map]

theorem position_relocate (n : Node) : (n.relocate f).position = f n.position := by
  cases n <;> rfl

theorem isInvalid_relocate (n : Node) : (n.relocate f).isInvalid = n.isInvalid := by
  cases n <;> rfl

end Node

/-- An error in the form of a query, moved. -/
def SyntaxError.relocate : SyntaxError → SyntaxError
  | unexpectedToken expected found p => unexpectedToken expected found (f p)
  | unexpectedEnd expected p => unexpectedEnd expected (f p)
  | missingArgument p => missingArgument (f p)
  | unknownOperator name p => unknownOperator name (f p)
  | trailingInput found p => trailingInput found (f p)
  | nestingTooDeep limit p => nestingTooDeep limit (f p)

theorem SyntaxError.position_relocate (e : SyntaxError) :
    (e.relocate f).position = f e.position := by
  cases e <;> rfl

/-- What reading a call tree gives, moved. -/
def Parsed.relocate (r : Parsed) : Parsed :=
  { ast := r.ast.map (Node.relocate f), errors := r.errors.map (SyntaxError.relocate f) }

/-- An error in the meaning of a query, moved. -/
def BindError.relocate : BindError → BindError
  | unknownField name p => unknownField name (f p)
  | wrongArity op found p => wrongArity op found (f p)
  | expectedField found p => expectedField found (f p)
  | expectedPredicate found p => expectedPredicate found (f p)
  | expectedValue found p => expectedValue found (f p)
  | typeMismatch field expected found p => typeMismatch field expected found (f p)

theorem BindError.position_relocate (e : BindError) : (e.relocate f).position = f e.position := by
  cases e <;> rfl

/-- What binding gives, moved. A predicate has no position. -/
def Bound.relocate (r : Bound) : Bound :=
  { predicate := r.predicate, errors := r.errors.map (BindError.relocate f) }

/-- What binding an operand gives, moved. -/
def BoundOperand.relocate (r : BoundOperand) : BoundOperand :=
  { value := r.value, errors := r.errors.map (BindError.relocate f) }

/-! ## 2. Reading -/

namespace Parse

open Grammar

/-- Bounds with the end of the text moved. -/
def Bounds.relocate (b : Bounds) : Bounds := { b with stop := f b.stop }

/-- A state with all that is ahead and all that was reported moved. -/
def State.relocate (s : State) : State :=
  { rest := s.rest.map (Token.relocate f), errors := s.errors.map (SyntaxError.relocate f),
    cut := s.cut }

@[simp] theorem State.rest_relocate (s : State) :
    (s.relocate f).rest = s.rest.map (Token.relocate f) := rfl

theorem State.rest_relocate_of_cons {s : State} {t : Token} {ts : List Token}
    (hs : s.rest = t :: ts) :
    (s.relocate f).rest = t.relocate f :: ts.map (Token.relocate f) := by
  rw [rest_relocate, hs, List.map_cons]

theorem opensParen_relocate (ts : List Token) :
    opensParen (ts.map (Token.relocate f)) = opensParen ts := by
  cases ts <;> rfl

theorem closesParen_relocate (ts : List Token) :
    closesParen (ts.map (Token.relocate f)) = closesParen ts := by
  cases ts <;> rfl

theorem State.opensParen_rest_relocate (s : State) :
    opensParen (s.relocate f).rest = opensParen s.rest := opensParen_relocate f s.rest

theorem State.closesParen_tail_relocate (s : State) :
    closesParen (s.relocate f).rest.tail = closesParen s.rest.tail := by
  rw [rest_relocate, ← List.map_tail, closesParen_relocate]

theorem beginsCall_relocate (t : Token) (ts : List Token) :
    beginsCall (t.relocate f) (ts.map (Token.relocate f)) = beginsCall t ts := by
  unfold beginsCall
  rw [opensParen_relocate]
  rfl

theorem synchronize_relocate (depth : Nat) (ts : List Token) :
    synchronize depth (ts.map (Token.relocate f)) =
      (synchronize depth ts).map (Token.relocate f) := by
  induction ts generalizing depth with
  | nil => rfl
  | cons t ts ih =>
    obtain ⟨kind, lexeme, p⟩ := t
    cases kind with
    | openParen => exact ih (depth + 1)
    | closeParen =>
      cases depth with
      | zero => rfl
      | succ depth => exact ih depth
    | comma =>
      cases depth with
      | zero => rfl
      | succ depth => exact ih (depth + 1)
    | _ => exact ih depth

theorem skipBalanced_relocate (depth : Nat) (ts : List Token) :
    skipBalanced depth (ts.map (Token.relocate f)) =
      (skipBalanced depth ts).map (Token.relocate f) := by
  induction ts generalizing depth with
  | nil => rfl
  | cons t ts ih =>
    obtain ⟨kind, lexeme, p⟩ := t
    cases kind with
    | openParen => exact ih (depth + 1)
    | closeParen =>
      simp only [List.map_cons, skipBalanced, Token.relocate]
      split
      · rfl
      · exact ih (depth - 1)
    | _ => exact ih depth

theorem callNode_relocate (head : Token) (args : List Node) :
    callNode (head.relocate f) (args.map (Node.relocate f)) =
      (callNode head args).relocate f := by
  obtain ⟨kind, lexeme, p⟩ := head
  cases kind with
  | operator op => exact (Node.relocate_call f op args p).symm
  | _ => rfl

theorem wordNode_relocate (t : Token) :
    Phrase.wordNode (t.relocate f) = (Phrase.wordNode t).relocate f := by
  obtain ⟨kind, lexeme, p⟩ := t
  cases kind <;> rfl

namespace State

theorem unexpected_relocate (s : State) (b : Bounds) (x : Expected) :
    (s.relocate f).unexpected (b.relocate f) x = (s.unexpected b x).relocate f := by
  obtain ⟨rest, errors, cut⟩ := s
  cases rest <;> rfl

theorem announce_relocate (s : State) (head : Token) :
    (s.relocate f).announce (head.relocate f) = (s.announce head).relocate f := by
  obtain ⟨kind, lexeme, p⟩ := head
  cases kind <;> rfl

theorem reportDepth_relocate (s : State) (b : Bounds) (p : Position) :
    (s.relocate f).reportDepth (b.relocate f) (f p) = (s.reportDepth b p).relocate f := by
  obtain ⟨rest, errors, cut⟩ := s
  cases cut <;> rfl

theorem expectSeparator_relocate (s : State) (b : Bounds) :
    (s.relocate f).expectSeparator (b.relocate f) = (s.expectSeparator b).relocate f := by
  obtain ⟨rest, errors, cut⟩ := s
  cases rest with
  | nil => rfl
  | cons t ts =>
    have hkind : isSeparator (t.relocate f) = isSeparator t := rfl
    simp only [expectSeparator, rest_relocate, List.map_cons, hkind]
    split <;> rfl

theorem expectEnd_relocate (s : State) : (s.relocate f).expectEnd = s.expectEnd.relocate f := by
  obtain ⟨rest, errors, cut⟩ := s
  cases rest <;> rfl

end State

theorem separator_relocate (b : Bounds) (s : State) :
    separator (b.relocate f) (s.relocate f) =
      ((separator b s).1, (separator b s).2.relocate f) := by
  have hsync := synchronize_relocate f 0 s.rest
  cases h : synchronize 0 s.rest with
  | nil =>
    rw [h] at hsync
    rw [separator_of_synchronize_nil h, separator_of_synchronize_nil hsync,
      State.expectSeparator_relocate]
    rfl
  | cons t ts =>
    rw [h] at hsync
    rw [separator_of_synchronize_cons h, separator_of_synchronize_cons hsync,
      State.expectSeparator_relocate]
    rfl

/-- **Reading commutes with every map of positions.** -/
theorem relocates (b : Bounds) :
    (∀ depth head s, call (b.relocate f) depth (head.relocate f) (s.relocate f) =
      ((call b depth head s).1.relocate f, (call b depth head s).2.relocate f)) ∧
    (∀ depth s, argument (b.relocate f) depth (s.relocate f) =
      ((argument b depth s).1.relocate f, (argument b depth s).2.relocate f)) ∧
    ∀ depth s, arguments (b.relocate f) depth [] (s.relocate f) =
      ((arguments b depth [] s).1.map (Node.relocate f),
        (arguments b depth [] s).2.relocate f) := by
  apply induction (b := b)
    (C := fun depth head s r => call (b.relocate f) depth (head.relocate f) (s.relocate f) =
      (r.1.relocate f, r.2.relocate f))
    (A := fun depth s r => argument (b.relocate f) depth (s.relocate f) =
      (r.1.relocate f, r.2.relocate f))
    (L := fun depth s r => arguments (b.relocate f) depth [] (s.relocate f) =
      (r.1.map (Node.relocate f), r.2.relocate f))
  case headless =>
    intro depth head s hopen
    have hopen' := (State.opensParen_rest_relocate f s).trans hopen
    rw [call_of_headless hopen', State.announce_relocate, State.unexpected_relocate]
    rfl
  case skipped =>
    intro depth head s hopen hdepth
    have hopen' := (State.opensParen_rest_relocate f s).trans hopen
    rw [call_of_limit_le (b := b.relocate f) hopen' hdepth, State.announce_relocate]
    simp only [Token.relocate, State.reportDepth_relocate]
    simp only [State.relocate, skipBalanced_relocate, Node.relocate]
  case empty =>
    intro depth head s hopen hdepth hclose
    have hopen' := (State.opensParen_rest_relocate f s).trans hopen
    have hclose' := (State.closesParen_tail_relocate f s).trans hclose
    rw [call_of_closesParen (b := b.relocate f) hopen' hdepth hclose', State.announce_relocate,
      ← callNode_relocate]
    simp only [State.relocate, List.map_tail, List.map_nil]
  case applied =>
    intro depth head s hopen hdepth hclose ih
    have hopen' := (State.opensParen_rest_relocate f s).trans hopen
    have hclose' := (State.closesParen_tail_relocate f s).trans hclose
    rw [call_of_arguments (b := b.relocate f) hopen' hdepth hclose', State.announce_relocate,
      ← callNode_relocate]
    simp only [State.relocate, List.map_tail] at ih ⊢
    rw [ih]
  case ended =>
    intro depth s hs
    rw [argument_of_nil (by rw [State.rest_relocate, hs, List.map_nil]), State.unexpected_relocate]
    rfl
  case nested =>
    intro depth s t ts hs hbegins ih
    rw [argument_of_beginsCall (State.rest_relocate_of_cons f hs)
      ((beginsCall_relocate f t ts).trans hbegins)]
    exact ih
  case word =>
    intro depth s t ts hs hword hbegins
    rw [argument_of_isWord (State.rest_relocate_of_cons f hs) hword
      ((beginsCall_relocate f t ts).trans hbegins), wordNode_relocate]
    rfl
  case missing =>
    intro depth s t ts hs hsep
    rw [argument_of_isSeparator (State.rest_relocate_of_cons f hs) hsep]
    rfl
  case group =>
    intro depth s t ts hs hopen
    rw [argument_of_openParen (State.rest_relocate_of_cons f hs) hopen,
      State.unexpected_relocate]
    simp only [State.relocate, synchronize_relocate, Node.relocate]
    rfl
  case last =>
    intro depth s ih hlast
    have hsep := separator_relocate f b (argument b depth s).2
    rw [arguments_last (by rw [ih, hsep, hlast]), ih, hsep]
    rfl
  case more =>
    intro depth s ih hmore ihrest
    have hsep := separator_relocate f b (argument b depth s).2
    rw [arguments_more (by rw [ih, hsep, hmore]), ih, hsep, ihrest]
    rfl

theorem query_relocate (b : Bounds) (tokens : List Token) :
    query (b.relocate f) (tokens.map (Token.relocate f)) = (query b tokens).relocate f := by
  cases tokens with
  | nil => rfl
  | cons t ts =>
    cases hbegins : beginsCall t ts with
    | false =>
      rw [List.map_cons, query_of_not_beginsCall hbegins,
        query_of_not_beginsCall ((beginsCall_relocate f t ts).trans hbegins)]
      rfl
    | true =>
      have hcall := (relocates f b).1 0 t ⟨ts, [], false⟩
      rw [List.map_cons, query_of_beginsCall hbegins,
        query_of_beginsCall ((beginsCall_relocate f t ts).trans hbegins)]
      rw [show (⟨ts.map (Token.relocate f), [], false⟩ : State) =
        State.relocate f ⟨ts, [], false⟩ from rfl, hcall]
      dsimp only [Parsed.relocate]
      rw [Node.isInvalid_relocate, State.expectEnd_relocate, apply_ite (Option.map _),
        List.map_reverse]
      rfl

end Parse

/-- Reading whole token sequences commutes with every map of positions. -/
theorem Parsed.ofTokens_relocate (maxDepth : Nat) (tokens : List Token) (stop : Position) :
    Parsed.ofTokens maxDepth (tokens.map (Token.relocate f)) (f stop) =
      (Parsed.ofTokens maxDepth tokens stop).relocate f :=
  Parse.query_relocate f ⟨min maxDepth depthCeiling, stop⟩ tokens

/-! ## 3. Binding -/

namespace Binding

theorem arityErrors_relocate (op : Operator) (found : Nat) (p : Position) :
    arityErrors op found (f p) = (arityErrors op found p).map (BindError.relocate f) := by
  unfold arityErrors
  split <;> rfl

theorem operand_relocate (name : String) (field : Field) (op : CompareOp) (n : Node) :
    operand name field op (n.relocate f) = (operand name field op n).relocate f := by
  cases n with
  | call op args p =>
    rw [Node.relocate_call]
    rfl
  | literal value p =>
    rw [Node.relocate]
    unfold operand
    dsimp only
    split <;> rfl
  | field name p => rfl
  | invalid p => rfl

theorem operands_relocate (name : String) (field : Field) (op : CompareOp) (ns : List Node) :
    operands name field op (ns.map (Node.relocate f)) =
      (operands name field op ns).relocate f := by
  have hmap : (ns.map (Node.relocate f)).map (operand name field op) =
      (ns.map (operand name field op)).map (BoundOperand.relocate f) := by
    rw [List.map_map, List.map_map]
    exact List.map_congr_left fun n _ => operand_relocate f name field op n
  unfold operands
  dsimp only
  rw [hmap, List.map_map, List.flatMap_map]
  simp only [Bound.relocate, List.map_flatMap]
  rfl

theorem comparison_relocate (schema : Schema) (op : CompareOp) (args : List Node) (p : Position) :
    comparison schema op (args.map (Node.relocate f)) (f p) =
      (comparison schema op args p).relocate f := by
  cases args with
  | nil =>
    rw [List.map_nil, comparison, comparison, arityErrors_relocate]
    rfl
  | cons n rest =>
    cases n with
    | call op' args' p' =>
      rw [List.map_cons, Node.relocate_call]
      rfl
    | literal value p' => rfl
    | invalid p' => rfl
    | field name p' =>
      rw [List.map_cons, Node.relocate, comparison, comparison, List.length_map,
        arityErrors_relocate]
      cases schema.get? name with
      | none => rfl
      | some field =>
        dsimp only
        cases arityErrors (.compare op) (rest.length + 1) p with
        | nil => exact operands_relocate f name field op rest
        | cons e es => rfl

theorem combinator_relocate (op : LogicalOp) (bounds : List Bound) (p : Position) :
    combinator op (bounds.map (Bound.relocate f)) (f p) =
      (combinator op bounds p).relocate f := by
  unfold combinator
  dsimp only
  rw [List.length_map, arityErrors_relocate, List.map_map, List.flatMap_map]
  simp only [Bound.relocate, List.map_append, List.map_flatMap, List.isEmpty_map]
  rfl

/-- **Binding commutes with every map of positions.** -/
theorem node_relocate (schema : Schema) (n : Node) :
    node schema (n.relocate f) = (node schema n).relocate f := by
  induction n using Node.induction with
  | call op args p ih =>
    rw [Node.relocate_call]
    cases op with
    | combine op =>
      have hargs : (args.map (Node.relocate f)).map (node schema) =
          (args.map (node schema)).map (Bound.relocate f) := by
        rw [List.map_map, List.map_map]
        exact List.map_congr_left ih
      rw [node_combine, node_combine, hargs, combinator_relocate]
    | compare op =>
      rw [node, node, comparison_relocate]
  | field name p => simp only [Node.relocate, node, Bound.relocate, List.map, BindError.relocate]
  | literal value p => simp only [Node.relocate, node, Bound.relocate, List.map, BindError.relocate]
  | invalid p => simp only [Node.relocate, node, Bound.relocate, List.map]

end Binding

theorem Schema.bind_relocate (schema : Schema) (n : Node) :
    schema.bind (n.relocate f) = (schema.bind n).relocate f := Binding.node_relocate f schema n

/-! ## 4. Whole queries -/

/-- A lexical error, moved. A text that is too long is not read at any position. -/
def LexError.relocate : LexError → LexError
  | illegalCharacter c p => illegalCharacter c (f p)
  | unterminatedString p => unterminatedString (f p)
  | invalidEscape c p => invalidEscape c (f p)
  | numberOutOfRange lexeme p => numberOutOfRange lexeme (f p)
  | inputTooLong length limit => inputTooLong length limit

/-- What the first two steps give, moved. -/
def Syntactic.relocate (s : Syntactic) : Syntactic :=
  { ast := s.ast.map (Node.relocate f)
    lexErrors := s.lexErrors.map (LexError.relocate f)
    syntaxErrors := s.syntaxErrors.map (SyntaxError.relocate f) }

/-- What reading a query gives, moved. -/
def Outcome.relocate (o : Outcome) : Outcome :=
  { predicate := o.predicate
    lexErrors := o.lexErrors.map (LexError.relocate f)
    syntaxErrors := o.syntaxErrors.map (SyntaxError.relocate f)
    bindErrors := o.bindErrors.map (BindError.relocate f) }

/-- Whether a query has a meaning, and which, is no matter of positions. -/
theorem Outcome.ofSyntactic_relocate (schema : Schema) (s : Syntactic) :
    Outcome.ofSyntactic schema (s.relocate f) = (Outcome.ofSyntactic schema s).relocate f := by
  have hbound : (((s.relocate f).ast.map schema.bind).getD ⟨none, []⟩) =
      ((s.ast.map schema.bind).getD ⟨none, []⟩).relocate f := by
    unfold Syntactic.relocate
    cases s.ast with
    | none => rfl
    | some n => exact Schema.bind_relocate f schema n
  unfold Outcome.ofSyntactic
  rw [hbound]
  simp only [Syntactic.relocate, Outcome.relocate, Bound.relocate, List.isEmpty_map]

/-! ## 5. Positions with a property -/

/-- Whether every node of a tree stands at a position with a property. -/
inductive Node.Everywhere (Q : Position → Prop) : Node → Prop
  | call {op : Operator} {args : List Node} {p : Position} (here : Q p)
      (below : ∀ a ∈ args, a.Everywhere Q) : Everywhere Q (.call op args p)
  | field {name : String} {p : Position} (here : Q p) : Everywhere Q (.field name p)
  | literal {value : Literal} {p : Position} (here : Q p) : Everywhere Q (.literal value p)
  | invalid {p : Position} (here : Q p) : Everywhere Q (.invalid p)

theorem Node.Everywhere.mono {Q R : Position → Prop} {n : Node} (h : n.Everywhere Q)
    (himp : ∀ p, Q p → R p) : n.Everywhere R := by
  induction h with
  | call here _ ih => exact .call (himp _ here) ih
  | field here => exact .field (himp _ here)
  | literal here => exact .literal (himp _ here)
  | invalid here => exact .invalid (himp _ here)

/-- A tree whose nodes are all sent to positions with a property. -/
theorem Node.everywhere_relocate {Q : Position → Prop} (hf : ∀ p, Q (f p)) (n : Node) :
    (n.relocate f).Everywhere Q := by
  induction n using Node.induction with
  | call op args p ih =>
    rw [relocate_call]
    exact .call (hf p) (List.forall_mem_map.mpr ih)
  | field name p => exact .field (hf p)
  | literal value p => exact .literal (hf p)
  | invalid p => exact .invalid (hf p)

/-- A tree whose nodes all have positions with a property stays where it is, if
the map leaves these positions alone. -/
theorem Node.Everywhere.relocate_eq {Q : Position → Prop} (hf : ∀ p, Q p → f p = p) {n : Node}
    (h : n.Everywhere Q) : n.relocate f = n := by
  induction h with
  | call here _ ih =>
    rw [relocate_call, hf _ here, List.map_congr_left ih, List.map_id']
  | field here => rw [relocate, hf _ here]
  | literal here => rw [relocate, hf _ here]
  | invalid here => rw [relocate, hf _ here]

/-- The position itself if it has the property, and `q` otherwise. -/
def Position.orElse (Q : Position → Prop) [DecidablePred Q] (q p : Position) : Position :=
  if Q p then p else q

section

variable {Q : Position → Prop} [DecidablePred Q]

theorem Position.orElse_of_holds {q p : Position} (h : Q p) : Position.orElse Q q p = p := if_pos h

theorem Position.orElse_holds {q : Position} (hq : Q q) (p : Position) :
    Q (Position.orElse Q q p) := by
  unfold orElse
  split
  · assumption
  · exact hq

end

/-- What all tokens and the end of the text have, all nodes and errors have that
are read from them. -/
theorem Parsed.everywhere {Q : Position → Prop} {tokens : List Token} {stop : Position}
    (htokens : ∀ t ∈ tokens, Q t.position) (hstop : Q stop) (maxDepth : Nat) :
    (∀ n ∈ (Parsed.ofTokens maxDepth tokens stop).ast, n.Everywhere Q) ∧
      ∀ e ∈ (Parsed.ofTokens maxDepth tokens stop).errors, Q e.position := by
  classical
  have hfixed : tokens.map (Token.relocate (Position.orElse Q stop)) = tokens := by
    have hid : ∀ t ∈ tokens, t.relocate (Position.orElse Q stop) = t := by
      intro t ht
      rw [Token.relocate, Position.orElse_of_holds (htokens t ht)]
    rw [List.map_congr_left hid, List.map_id']
  have hread := Parsed.ofTokens_relocate (Position.orElse Q stop) maxDepth tokens stop
  rw [hfixed, Position.orElse_of_holds hstop] at hread
  rw [hread]
  refine ⟨?_, ?_⟩
  · intro n hn
    obtain ⟨n', _, rfl⟩ := Option.map_eq_some_iff.mp hn
    exact Node.everywhere_relocate _ (Position.orElse_holds hstop) n'
  · refine List.forall_mem_map.mpr ?_
    intro e _
    rw [SyntaxError.position_relocate]
    exact Position.orElse_holds hstop e.position

/-- What all nodes of a tree have, all errors have that binding it gives. -/
theorem Schema.bind_everywhere {Q : Position → Prop} {n : Node} (h : n.Everywhere Q)
    (schema : Schema) : ∀ e ∈ (schema.bind n).errors, Q e.position := by
  classical
  have hroot : Q n.position := by cases h <;> assumption
  have hfixed := h.relocate_eq (Position.orElse Q n.position)
    fun p hp => Position.orElse_of_holds hp
  have hbind := Schema.bind_relocate (Position.orElse Q n.position) schema n
  rw [hfixed] at hbind
  rw [hbind]
  refine List.forall_mem_map.mpr ?_
  intro e _
  rw [BindError.position_relocate]
  exact Position.orElse_holds hroot e.position

end FilterQuery
