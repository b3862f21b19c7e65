/-
FilterQuery.Proofs.Unfinished — a query that breaks off.

A query may end anywhere: behind a head, behind a parenthesis or a comma,
behind an argument, at any depth. What is reported then is what is missing
and nothing else: first what the last token asks for, if it asks for
something, and then one closing parenthesis for each that is still open
(`Parsed.ofTokens_unfinished`). Nothing in front of the end is reported,
and there is a node as soon as the first call is open.

## How the proof goes

Where a sentence is cut, one call is left open, in it perhaps a second one,
and so on: in each of them some arguments are complete, and behind them the
next call is open or the cut is. The relation `Unfinished` says this of the
tokens behind an opening parenthesis, along with what the last token asks
for and how many calls are open. Every cut through a sentence is of this
form (`unfinished_of_expression`), and an induction over the form shows
what is read (`arguments_of_unfinished`).
-/
import FilterQuery.Proofs.Acceptance
import FilterQuery.Token.Run

namespace FilterQuery

open Grammar Parse

/-! ## 1. What is missing at the end -/

namespace Grammar

/-- What must stand behind a token: a parenthesis behind an operator, an argument behind
an opening parenthesis or a comma. No other token asks for anything by itself. -/
def asksFor (t : Token) : Option Expected :=
  match t.kind with
  | .operator _ => some .openParen
  | .openParen | .comma => some .argument
  | _ => none

/-- What the last of some tokens asks for; where there is none, a call is missing. -/
def askedFor (ts : List Token) : Option Expected :=
  ts.getLast?.elim (some .operatorCall) asksFor

/-- How many parentheses are open behind some tokens, if `n` are open in front of them.
Where none is open, a closing parenthesis closes nothing. -/
def opened (n : Nat) (ts : List Token) : Nat :=
  ts.foldl
    (fun n t =>
      if t.kind = .openParen then n + 1 else if t.kind = .closeParen then n - 1 else n) n

/-- The number of opening parentheses that are not matched. -/
def unmatched (ts : List Token) : Nat := opened 0 ts

/-- The errors for a text that ends at `stop`, where something may be asked for, and `u`
calls are open. -/
def endErrors (stop : Position) (asked : Option Expected) (u : Nat) : List SyntaxError :=
  asked.toList.map (.unexpectedEnd · stop) ++
    List.replicate u (.unexpectedEnd .closeParen stop)

theorem askedFor_append_cons (ts : List Token) (t : Token) (us : List Token) :
    askedFor (ts ++ t :: us) = askedFor (t :: us) := by
  rw [askedFor, askedFor, List.getLast?_append_of_ne_nil _ (List.cons_ne_nil t us)]

theorem opened_append (n : Nat) (ts us : List Token) :
    opened n (ts ++ us) = opened (opened n ts) us := List.foldl_append

theorem opened_cons (n : Nat) (t : Token) (ts : List Token) :
    opened n (t :: ts) = opened (opened n [t]) ts := rfl

theorem opened_openParen {t : Token} (ht : t.kind = .openParen) (n : Nat) :
    opened n [t] = n + 1 := if_pos ht

theorem opened_closeParen {t : Token} (ht : t.kind = .closeParen) (n : Nat) :
    opened n [t] = n - 1 := by
  simp [opened, ht]

theorem opened_comma {t : Token} (ht : t.kind = .comma) (n : Nat) : opened n [t] = n := by
  simp [opened, ht]

theorem opened_isHead {t : Token} (ht : isHead t = true) (n : Nat) : opened n [t] = n := by
  obtain ⟨kind, lexeme, p⟩ := t
  cases kind <;> simp_all [isHead, opened]

theorem opened_isWord {t : Token} (ht : isWord t = true) (n : Nat) : opened n [t] = n := by
  obtain ⟨kind, lexeme, p⟩ := t
  cases kind <;> simp_all [isWord, opened]

theorem endErrors_succ (stop : Position) (asked : Option Expected) (u : Nat) :
    endErrors stop asked (u + 1) = endErrors stop asked u ++ [.unexpectedEnd .closeParen stop] := by
  rw [endErrors, endErrors, List.replicate_succ', List.append_assoc]

mutual

/-- In a sentence, all parentheses are matched. -/
theorem opened_of_expression {ts : List Token} {e : Phrase} :
    Expression ts e → ∀ n, opened n ts = n
  | .empty hhead hopen hclose, n => by
      rw [opened_cons, opened_isHead hhead, opened_cons, opened_openParen hopen,
        opened_closeParen hclose, Nat.add_sub_cancel]
  | .applied hhead hopen hargs hclose, n => by
      rw [opened_cons, opened_isHead hhead, opened_cons, opened_openParen hopen, opened_append,
        opened_of_arguments hargs, opened_closeParen hclose, Nat.add_sub_cancel]

theorem opened_of_arguments {ts : List Token} {as : List Phrase} :
    Arguments ts as → ∀ n, opened n ts = n
  | .last ha, n => opened_of_argument ha n
  | .more ha hcomma has, n => by
      rw [opened_append, opened_of_argument ha, opened_cons, opened_comma hcomma,
        opened_of_arguments has]

theorem opened_of_argument {ts : List Token} {a : Phrase} :
    Argument ts a → ∀ n, opened n ts = n
  | .expression he, n => opened_of_expression he n
  | .word hword, n => opened_isWord hword n

end

/-- The last token of an argument asks for nothing: it is a closing parenthesis or a word. -/
theorem ends_of_argument {ts : List Token} {a : Phrase} (h : Argument ts a) :
    ∃ front last, ts = front ++ [last] ∧ asksFor last = none := by
  have hclosing : ∀ {t : Token}, t.kind = .closeParen → asksFor t = none := by
    intro t ht
    rw [asksFor, ht]
  cases h with
  | expression he =>
    cases he with
    | @empty head opening closing _ _ hclose =>
      exact ⟨[head, opening], closing, rfl, hclosing hclose⟩
    | @applied head opening closing ts _ _ _ _ hclose =>
      exact ⟨head :: opening :: ts, closing, rfl, hclosing hclose⟩
  | @word t hword =>
    refine ⟨[], t, rfl, ?_⟩
    obtain ⟨kind, lexeme, p⟩ := t
    cases kind <;> simp_all [isWord, asksFor]

/-! ## 2. The form of what is left of a sentence -/

/-- Whether some tokens are what is left, behind an opening parenthesis, of arguments that
break off: what the last token asks for, and how many calls are open in them. Every head is
an operator, and calls are nested at most `room` deep. -/
inductive Unfinished : Nat → List Token → Option Expected → Nat → Prop
  /-- No argument has begun. -/
  | missing {room : Nat} : Unfinished room [] (some .argument) 0
  /-- The last argument is complete, and what is missing is behind it. -/
  | complete {room : Nat} {ts : List Token} {a : Phrase} (argument : Argument ts a)
      (headed : a.OperatorHeaded) (nested : a.nesting ≤ room) : Unfinished room ts none 0
  /-- The last argument is a call without its opening parenthesis. -/
  | head {room : Nat} {head : Token} {op : Operator} (isOperator : head.kind = .operator op) :
      Unfinished room [head] (some .openParen) 0
  /-- The last argument is a call that is open. -/
  | nested {room u : Nat} {head opening : Token} {op : Operator} {ts : List Token}
      {asked : Option Expected} (isOperator : head.kind = .operator op)
      (opens : opening.kind = .openParen) (inside : Unfinished room ts asked u) :
      Unfinished (room + 1) (head :: opening :: ts) asked (u + 1)
  /-- The first argument is complete, and others follow it. -/
  | more {room u : Nat} {ts us : List Token} {comma : Token} {a : Phrase}
      {asked : Option Expected} (argument : Argument ts a) (headed : a.OperatorHeaded)
      (nested : a.nesting ≤ room) (separates : comma.kind = .comma)
      (behind : Unfinished room us asked u) : Unfinished room (ts ++ comma :: us) asked u

/-- A sentence is a call, so it is nested at least once. -/
theorem nesting_pos_of_expression {ts : List Token} {e : Phrase} (h : Expression ts e) :
    0 < e.nesting := by
  cases h with
  | empty => exact Nat.succ_pos _
  | applied => exact Nat.succ_pos _

variable {room u : Nat} {ts : List Token} {asked : Option Expected}

/-- What is asked for at the end is what the last token asks for. -/
theorem Unfinished.askedFor_cons (h : Unfinished room ts asked u) {before : Token}
    (hbefore : asksFor before = some .argument) : askedFor (before :: ts) = asked := by
  induction h generalizing before with
  | missing => exact hbefore
  | complete argument =>
    obtain ⟨front, last, rfl, hlast⟩ := ends_of_argument argument
    rw [← List.cons_append, askedFor_append_cons]
    exact hlast
  | @head _ head op isOperator =>
    have hask : asksFor head = some .openParen := by rw [asksFor, isOperator]
    exact hask
  | @nested _ _ head opening _ ts _ _ opens _ ih =>
    have hask : asksFor opening = some .argument := by rw [asksFor, opens]
    rw [← ih hask]
    exact askedFor_append_cons [before, head] opening ts
  | @more _ _ ts us comma _ _ _ _ _ separates _ ih =>
    have hask : asksFor comma = some .argument := by rw [asksFor, separates]
    rw [← ih hask, ← List.cons_append, askedFor_append_cons]

/-- The calls that are open are the parentheses that are not matched. -/
theorem Unfinished.opened_eq (h : Unfinished room ts asked u) (n : Nat) : opened n ts = n + u := by
  induction h generalizing n with
  | missing => rfl
  | complete argument => exact opened_of_argument argument n
  | head isOperator => exact opened_isHead (by simp [isHead, isOperator]) n
  | nested isOperator opens _ ih =>
    rw [opened_cons, opened_isHead (by simp [isHead, isOperator]), opened_cons,
      opened_openParen opens, ih, Nat.add_right_comm, Nat.add_assoc]
  | more argument _ _ separates _ ih =>
    rw [opened_append, opened_of_argument argument, opened_cons, opened_comma separates, ih]

/-- No closing parenthesis is in front. -/
theorem Unfinished.closesParen_eq_false (h : Unfinished room ts asked u) :
    closesParen ts = false := by
  cases h with
  | missing => rfl
  | complete argument =>
    rw [← List.append_nil ts]
    exact closesParen_of_arguments (.last argument)
  | head isOperator => simp [closesParen, isOperator]
  | nested isOperator => simp [closesParen, isOperator]
  | more argument => exact closesParen_of_arguments (.last argument)

/-- A sequence with two tokens in front is cut before them, between them or behind them. -/
theorem cut_cases {head opening : Token} {us pre post : List Token}
    (h : head :: opening :: us = pre ++ post) :
    pre = [] ∨ pre = [head] ∨ ∃ inner, pre = head :: opening :: inner ∧ us = inner ++ post := by
  obtain ⟨rfl, -⟩ | ⟨behind, rfl, hbehind⟩ := List.cons_eq_append_iff.mp h
  · exact .inl rfl
  obtain ⟨rfl, -⟩ | ⟨inner, rfl, hinner⟩ := List.cons_eq_append_iff.mp hbehind
  · exact .inr (.inl rfl)
  · exact .inr (.inr ⟨inner, rfl, hinner⟩)

mutual

/-- What is left of a sentence that is cut is nothing, its head, or its head and the
parenthesis with unfinished arguments behind it. -/
theorem unfinished_of_expression {ts : List Token} {e : Phrase} :
    Expression ts e → ∀ {room : Nat} (pre post : List Token), ts = pre ++ post → post ≠ [] →
      e.OperatorHeaded → e.nesting ≤ room + 1 →
      pre = [] ∨ ∃ head op, head.kind = .operator op ∧
        (pre = [head] ∨ ∃ opening inner asked u, opening.kind = .openParen ∧
          pre = head :: opening :: inner ∧ Unfinished room inner asked u)
  | @Expression.empty head opening _ _ hopen _, _, pre, post, hts, hpost,
      .call ⟨op, hop⟩ _, _ => by
      rcases cut_cases hts with rfl | rfl | ⟨inner, rfl, hinner⟩
      · exact .inl rfl
      · exact .inr ⟨head, op, hop, .inl rfl⟩
      · obtain ⟨rfl, -⟩ | ⟨-, rfl⟩ := List.append_eq_singleton_iff.mp hinner.symm
        · exact .inr ⟨head, op, hop, .inr ⟨opening, [], _, _, hopen, rfl, .missing⟩⟩
        · exact absurd rfl hpost
  | @Expression.applied head opening _ ts _ _ hopen hargs _, room, pre, post, hts, hpost,
      .call ⟨op, hop⟩ hheaded, hnesting => by
      rcases cut_cases hts with rfl | rfl | ⟨inner, rfl, hinner⟩
      · exact .inl rfl
      · exact .inr ⟨head, op, hop, .inl rfl⟩
      · -- The closing parenthesis is behind the cut.
        obtain ⟨rest, last, rfl⟩ := List.eq_nil_or_concat post |>.resolve_left hpost
        rw [List.concat_eq_append, ← List.append_assoc] at hinner
        obtain ⟨hinner, -⟩ := List.append_inj' hinner rfl
        rw [Phrase.nesting, Nat.add_le_add_iff_right] at hnesting
        obtain ⟨asked, u, hunfinished⟩ :=
          unfinished_of_arguments hargs inner rest hinner hheaded hnesting
        exact .inr ⟨head, op, hop, .inr ⟨opening, inner, asked, u, hopen, rfl, hunfinished⟩⟩

/-- What is left of arguments that are cut, or that lack the closing parenthesis behind
them, is unfinished. -/
theorem unfinished_of_arguments {ts : List Token} {as : List Phrase} :
    Arguments ts as → ∀ {room : Nat} (pre post : List Token), ts = pre ++ post →
      (∀ a ∈ as, a.OperatorHeaded) → Phrase.nestingAmong as ≤ room →
      ∃ asked u, Unfinished room pre asked u
  | .last ha, _, pre, post, hts, hheaded, hnesting =>
      unfinished_of_argument ha pre post hts (hheaded _ List.mem_cons_self)
        (Phrase.nestingAmong_le_iff.mp hnesting _ List.mem_cons_self)
  | .more ha hcomma has, _, pre, post, hts, hheaded, hnesting => by
      obtain ⟨hfirst, hothers⟩ := List.forall_mem_cons.mp hheaded
      rw [Phrase.nestingAmong, Nat.max_le] at hnesting
      obtain ⟨hnested, hnestedAmong⟩ := hnesting
      obtain ⟨rest, rfl, hrest⟩ | ⟨rest, rfl, hrest⟩ := List.append_eq_append_iff.mp hts
      · cases rest with
        | nil =>
          rw [List.append_nil]
          exact ⟨_, _, .complete ha hfirst hnested⟩
        | cons comma us =>
          obtain ⟨rfl, htail⟩ := List.cons.inj hrest
          obtain ⟨asked, u, hbehind⟩ := unfinished_of_arguments has us post htail hothers
            hnestedAmong
          exact ⟨asked, u, .more ha hfirst hnested hcomma hbehind⟩
      · exact unfinished_of_argument ha pre rest rfl hfirst hnested

/-- What is left of an argument that is cut, or all of it, is unfinished. -/
theorem unfinished_of_argument {ts : List Token} {a : Phrase} :
    Argument ts a → ∀ {room : Nat} (pre post : List Token), ts = pre ++ post →
      a.OperatorHeaded → a.nesting ≤ room → ∃ asked u, Unfinished room pre asked u
  | .word hword, _, pre, post, hts, hheaded, hnesting => by
      obtain ⟨rfl, -⟩ | ⟨rfl, -⟩ := List.append_eq_singleton_iff.mp hts.symm
      · exact ⟨_, _, .missing⟩
      · exact ⟨_, _, .complete (.word hword) hheaded hnesting⟩
  | .expression he, room, pre, post, hts, hheaded, hnesting => by
      by_cases hpost : post = []
      · obtain rfl : ts = pre := by rw [hts, hpost, List.append_nil]
        exact ⟨_, _, .complete (.expression he) hheaded hnesting⟩
      · obtain ⟨inner, rfl⟩ : ∃ inner, room = inner + 1 :=
          Nat.exists_eq_add_one.mpr (Nat.lt_of_lt_of_le (nesting_pos_of_expression he) hnesting)
        rcases unfinished_of_expression he pre post hts hpost hheaded hnesting with
          rfl | ⟨head, op, hop, rfl | ⟨opening, ts, asked, u, hopen, rfl, hinside⟩⟩
        · exact ⟨_, _, .missing⟩
        · exact ⟨_, _, .head hop⟩
        · exact ⟨asked, u + 1, .nested hop hopen hinside⟩

end

end Grammar

/-! ## 3. What is read -/

namespace Parse

/-- Where an argument takes all tokens that are left, it is the last one, and the closing
parenthesis behind it is missing. -/
theorem arguments_of_ended {b : Bounds} {depth : Nat} {s : State} {n : Node}
    {errors : List SyntaxError} {cut : Bool}
    (h : argument b depth s = (n, ⟨[], errors, cut⟩)) :
    arguments b depth [] s = ([n], ⟨[], .unexpectedEnd .closeParen b.stop :: errors, cut⟩) := by
  have hend : separator b ⟨[], errors, cut⟩ =
      (false, ⟨[], .unexpectedEnd .closeParen b.stop :: errors, cut⟩) := separator_of_nil rfl
  rw [arguments_last (by rw [h, hend]), h, hend]

/-- An argument with nothing behind it is read as its node. -/
theorem argument_of_argument_nil {b : Bounds} {ts : List Token} {a : Phrase} (h : Argument ts a)
    {depth : Nat} (hdepth : depth + a.nesting < b.limit) (errors : List SyntaxError) (cut : Bool) :
    argument b depth ⟨ts, errors, cut⟩ = (a.node, ⟨[], a.unknownHeads.reverse ++ errors, cut⟩) := by
  cases h with
  | expression he =>
    obtain ⟨head, opening, us, rfl, hhead, hopen⟩ := begins_of_expression he
    rw [argument_of_beginsCall rfl (beginsCall_of_isHead us hhead hopen)]
    have hread := call_of_expression (b := b) he head (opening :: us) (depth + 1) [] errors cut rfl
      (by omega)
    rwa [List.append_nil] at hread
  | @word t hword =>
    have hnone : beginsCall t [] = false := by
      obtain ⟨kind, lexeme, p⟩ := t
      cases kind <;> simp_all [isWord, beginsCall, opensParen]
    exact argument_of_isWord rfl hword hnone

/-- An operator at the end of the text asks for its parenthesis. -/
theorem call_of_operator_nil {head : Token} {op : Operator} (h : head.kind = .operator op)
    (b : Bounds) (depth : Nat) (errors : List SyntaxError) (cut : Bool) :
    call b depth head ⟨[], errors, cut⟩ =
      (.invalid head.position, ⟨[], .unexpectedEnd .openParen b.stop :: errors, cut⟩) := by
  rw [call_of_headless rfl, announce_of_operator h]
  rfl

/-- Where arguments break off, the errors are those for the end of the text: what the last
token asks for, and a closing parenthesis for each call that is open in them and for the
one whose arguments they are. -/
theorem arguments_of_unfinished {b : Bounds} {room u : Nat} {ts : List Token}
    {asked : Option Expected} (h : Unfinished room ts asked u) {depth : Nat}
    (hdepth : depth + room < b.limit) (errors : List SyntaxError) (cut : Bool) :
    (arguments b depth [] ⟨ts, errors, cut⟩).2 =
      ⟨[], (endErrors b.stop asked (u + 1)).reverse ++ errors, cut⟩ := by
  rw [endErrors_succ, List.reverse_append, List.reverse_singleton, List.append_assoc,
    List.singleton_append]
  induction h generalizing depth errors with
  | missing =>
    have hread : argument b depth ⟨[], errors, cut⟩ =
        (.invalid b.stop, ⟨[], .unexpectedEnd .argument b.stop :: errors, cut⟩) :=
      argument_of_nil rfl
    rw [arguments_of_ended hread]
    rfl
  | @complete _ _ a argument headed nested =>
    have hroom : depth + a.nesting < b.limit :=
      Nat.lt_of_le_of_lt (Nat.add_le_add_left nested depth) hdepth
    have hread := argument_of_argument_nil argument hroom errors cut
    rw [headed.unknownHeads_eq_nil] at hread
    rw [arguments_of_ended hread]
    rfl
  | @head _ head op isOperator =>
    have hread := call_of_operator_nil isOperator b (depth + 1) errors cut
    rw [← argument_of_beginsCall (s := ⟨[head], errors, cut⟩) rfl
      (beginsCall_of_operator isOperator [])] at hread
    rw [arguments_of_ended hread]
    rfl
  | @nested room u head opening op ts asked isOperator opens inside ih =>
    have hbelow : depth + 1 + room < b.limit := by omega
    have hread := call_of_operator isOperator opens
      (Nat.lt_of_le_of_lt (Nat.le_add_right _ room) hbelow) inside.closesParen_eq_false errors cut
    rw [ih hbelow, ← argument_of_beginsCall (s := ⟨head :: opening :: ts, errors, cut⟩) rfl
      (beginsCall_of_operator isOperator _)] at hread
    rw [arguments_of_ended hread, endErrors_succ, List.reverse_append, List.reverse_singleton,
      List.singleton_append, List.cons_append]
  | @more room u ts us comma a asked argument headed nested separates behind ih =>
    have hsep : isSeparator comma = true := by simp [isSeparator, separates]
    have hread := argument_of_argument (b := b) argument depth comma us errors cut hsep (by omega)
    rw [headed.unknownHeads_eq_nil, List.reverse_nil, List.nil_append] at hread
    have hnext := separator_of_isSeparator b us errors cut hsep
    rw [arguments_more]
    · rw [hread, hnext]
      exact ih hdepth errors
    · rw [hread, hnext]
      simp [separates]

end Parse

/-- **A query that breaks off is diagnosed exactly.** Take a sentence in which every head is
an operator and calls are nested no deeper than allowed, and cut it anywhere before its end.
Reading what is left reports first what its last token asks for, if it asks for something, or
a call if there is no token at all, and then one closing parenthesis for each that is not
matched, all at the end of the text. Nothing else is reported. There is a node as soon as
there are two tokens. -/
theorem Parsed.ofTokens_unfinished {maxDepth : Nat} {tokens pre post : List Token} {e : Phrase}
    (stop : Position) (he : Expression tokens e) (hheaded : e.OperatorHeaded)
    (hnesting : e.nesting ≤ min maxDepth depthCeiling) (htokens : tokens = pre ++ post)
    (hpost : post ≠ []) :
    (Parsed.ofTokens maxDepth pre stop).errors =
        (askedFor pre).toList.map (.unexpectedEnd · stop) ++
          List.replicate (unmatched pre) (.unexpectedEnd .closeParen stop) ∧
      ((Parsed.ofTokens maxDepth pre stop).ast = none ↔ pre.length ≤ 1) := by
  obtain ⟨room, hroom⟩ := Nat.exists_eq_add_one.mpr (nesting_pos_of_expression he)
  have hlimit : 0 + room < min maxDepth depthCeiling := by omega
  rcases unfinished_of_expression he pre post htokens hpost hheaded (Nat.le_of_eq hroom) with
    rfl | ⟨head, op, hop, hpre⟩
  · exact ⟨rfl, by simp [Parsed.ofTokens, query]⟩
  have hask : asksFor head = some .openParen := by rw [asksFor, hop]
  have hhead : ∀ n, opened n [head] = n := opened_isHead (by simp [isHead, hop])
  rcases hpre with rfl | ⟨opening, inner, asked, u, hopen, rfl, hunfinished⟩
  · have hasked : askedFor [head] = some .openParen := hask
    rw [Parsed.ofTokens, query_of_beginsCall (beginsCall_of_operator hop []),
      call_of_operator_nil hop, hasked, unmatched, hhead]
    exact ⟨rfl, by simp [Node.isInvalid]⟩
  · have hasked : askedFor (head :: opening :: inner) = asked :=
      (askedFor_append_cons [head] opening inner).trans
        (hunfinished.askedFor_cons (by rw [asksFor, hopen]))
    have hunmatched : unmatched (head :: opening :: inner) = u + 1 := by
      rw [unmatched, opened_cons, hhead, opened_cons, opened_openParen hopen,
        hunfinished.opened_eq, Nat.zero_add, Nat.add_comm]
    rw [Parsed.ofTokens, query_of_beginsCall (beginsCall_of_operator hop _),
      call_of_operator hop hopen (Nat.lt_of_le_of_lt (Nat.zero_le _) hlimit)
        hunfinished.closesParen_eq_false,
      arguments_of_unfinished hunfinished hlimit, hasked, hunmatched, List.append_nil]
    exact ⟨List.reverse_reverse _, by simp [Node.isInvalid]⟩

/-- `and(eq(a,1))`, cut behind the comma: an argument and two closing parentheses are
missing, and there is a node. -/
theorem Parsed.ofTokens_unfinished_of_comma :
    let tokens := (Lexed.ofText "and(eq(a,1))").tokens
    let pre := (Lexed.ofText "and(eq(a,").tokens
    let stop : Position := ⟨9, 1, 10⟩
    ∃ e post, Expression tokens e ∧ e.OperatorHeaded ∧ e.nesting ≤ min 2 depthCeiling ∧
      tokens = pre ++ post ∧ post ≠ [] ∧
      (Parsed.ofTokens 2 pre stop).errors =
        [.unexpectedEnd .argument stop, .unexpectedEnd .closeParen stop,
          .unexpectedEnd .closeParen stop] ∧
      (Parsed.ofTokens 2 pre stop).ast ≠ none := by
  intro tokens pre stop
  let head : Token := ⟨.operator (.combine .and), "and", ⟨0, 1, 1⟩⟩
  let inner : Token := ⟨.operator (.compare .eq), "eq", ⟨4, 1, 5⟩⟩
  let field : Token := ⟨.identifier "a", "a", ⟨7, 1, 8⟩⟩
  let value : Token := ⟨.number ⟨1, 0, by decide, by decide⟩, "1", ⟨9, 1, 10⟩⟩
  let post : List Token :=
    [value, ⟨.closeParen, ")", ⟨10, 1, 11⟩⟩, ⟨.closeParen, ")", ⟨11, 1, 12⟩⟩]
  have hpre : pre = [head, ⟨.openParen, "(", ⟨3, 1, 4⟩⟩, inner, ⟨.openParen, "(", ⟨6, 1, 7⟩⟩,
      field, ⟨.comma, ",", ⟨8, 1, 9⟩⟩] := by decide +kernel
  have htokens : tokens = pre ++ post := by decide +kernel
  let e : Phrase := .call head [.call inner [.word field, .word value]]
  have he : Expression tokens e := by
    rw [htokens, hpre]
    exact .applied rfl rfl (.last (.expression
      (.applied rfl rfl (.more (.word rfl) rfl (.last (.word rfl))) rfl))) rfl
  have hheaded : e.OperatorHeaded := operatorHeaded_of_expression he rfl
  have hnesting : e.nesting ≤ min 2 depthCeiling := by decide
  have hpost : post ≠ [] := List.cons_ne_nil _ _
  obtain ⟨herrors, hast⟩ := Parsed.ofTokens_unfinished stop he hheaded hnesting htokens hpost
  refine ⟨e, post, he, hheaded, hnesting, htokens, hpost, ?_, ?_⟩
  · rw [herrors, hpre]
    rfl
  · rw [Ne, hast, hpre]
    decide

end FilterQuery
