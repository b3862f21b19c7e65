/-
FilterQuery.Proofs.Matching — parentheses, and where reading goes on.

Three things move along the tokens of a query: a call that is read
argument by argument, a group that is skipped because it is nested too
deep (`skipBalanced`), and the search for the next separator after a
mistake (`synchronize`). The last two count parentheses. The first does
not: it keeps its place by calling itself, and between two calls it may
search, skip, or take no token at all.

All three agree (`rest_eq`). Whatever the tokens are, a call goes on
behind the group of its arguments, just where skipping that group goes
on, and an argument leaves the next separator of its list where it was.
None of this mentions the nesting limit, so two readings of the same
tokens under different limits stay side by side.

The proof needs two facts about the counting functions alone, one for
each order in which they may follow each other
(`synchronize_skipBalanced`, `skipBalanced_synchronize`).
-/
import FilterQuery.Proofs.Reading

namespace FilterQuery

namespace Parse

/-! ## 1. Skipping and searching -/

/-- A search stops in front of a separator. -/
theorem isSeparator_of_synchronize {depth : Nat} {ts us : List Token} {t : Token}
    (h : synchronize depth ts = t :: us) : isSeparator t = true := by
  fun_induction synchronize depth ts <;> simp_all [isSeparator]

/-- Where a search has stopped, it stops again. -/
theorem synchronize_synchronize (depth : Nat) (ts : List Token) :
    synchronize 0 (synchronize depth ts) = synchronize depth ts := by
  cases h : synchronize depth ts with
  | nil => rfl
  | cons t us => exact synchronize_of_isSeparator (isSeparator_of_synchronize h)

/-- Behind a group that was skipped, a search is where it would be if it had
counted the parentheses of the group itself. -/
theorem synchronize_skipBalanced (depth opened : Nat) (ts : List Token) :
    synchronize depth (skipBalanced (opened + 1) ts) = synchronize (depth + opened + 1) ts := by
  induction ts generalizing opened with
  | nil => rfl
  | cons t ts ih =>
    obtain ⟨kind, lexeme, p⟩ := t
    cases kind with
    | openParen => exact ih (opened + 1)
    | closeParen =>
      cases opened with
      | zero => simp [skipBalanced, synchronize]
      | succ opened => simpa [skipBalanced, synchronize, Nat.add_assoc] using ih opened
    | _ => exact ih opened

/-- In front of a separator that was searched for, the group around it ends
where it would end from the start of the search on. -/
theorem skipBalanced_synchronize (depth : Nat) (ts : List Token) :
    skipBalanced 1 (synchronize depth ts) = skipBalanced (depth + 1) ts := by
  induction ts generalizing depth with
  | nil => rfl
  | cons t ts ih =>
    obtain ⟨kind, lexeme, p⟩ := t
    cases kind with
    | openParen => exact ih (depth + 1)
    | closeParen =>
      cases depth with
      | zero => rfl
      | succ depth => simpa [skipBalanced, synchronize] using ih depth
    | comma =>
      cases depth with
      | zero => rfl
      | succ depth => exact ih (depth + 1)
    | _ => exact ih depth

theorem skipBalanced_of_opensParen {ts : List Token} (h : opensParen ts = true) :
    skipBalanced 0 ts = skipBalanced 1 ts.tail := by
  obtain ⟨opening, hts, hkind⟩ := cons_of_opensParen h
  rw [hts]
  simp [skipBalanced, hkind]

theorem skipBalanced_of_closesParen {ts : List Token} (h : closesParen ts = true) :
    skipBalanced 1 ts = ts.tail := by
  obtain ⟨closing, hts, hkind⟩ := cons_of_closesParen h
  rw [hts]
  simp [skipBalanced, hkind]

theorem synchronize_of_opensParen (depth : Nat) {ts : List Token} (h : opensParen ts = true) :
    synchronize depth ts = synchronize (depth + 1) ts.tail := by
  obtain ⟨opening, hts, hkind⟩ := cons_of_opensParen h
  rw [hts]
  simp [synchronize, hkind]

/-- A group holds no separator of the list it stands in. -/
theorem synchronize_group (depth : Nat) {ts : List Token} (h : opensParen ts = true) :
    synchronize depth (skipBalanced 0 ts) = synchronize depth ts := by
  rw [skipBalanced_of_opensParen h, synchronize_skipBalanced, synchronize_of_opensParen depth h]

/-- The head of a call is no separator. -/
theorem synchronize_of_beginsCall {t : Token} {ts : List Token} (h : beginsCall t ts = true) :
    synchronize 0 (t :: ts) = synchronize 0 ts := by
  obtain ⟨kind, lexeme, p⟩ := t
  cases kind <;> simp_all [beginsCall, synchronize]

/-- A single token that is an argument is no separator. -/
theorem synchronize_of_isWord {t : Token} (ts : List Token) (h : Grammar.isWord t = true) :
    synchronize 0 (t :: ts) = synchronize 0 ts := by
  obtain ⟨kind, lexeme, p⟩ := t
  cases kind <;> simp_all [Grammar.isWord, synchronize]

/-! ## 2. Separators -/

/-- Where no separator is left, the closing parenthesis is missing. -/
theorem separator_of_synchronize_nil {b : Bounds} {s : State} (h : synchronize 0 s.rest = []) :
    separator b s =
      (false, State.unexpected ⟨[], (s.expectSeparator b).errors, (s.expectSeparator b).cut⟩ b
        .closeParen) := by
  unfold separator
  simp only [State.expectSeparator_rest, h]

/-- The next separator is taken, whatever stands in front of it. -/
theorem separator_of_synchronize_cons {b : Bounds} {s : State} {t : Token} {ts : List Token}
    (h : synchronize 0 s.rest = t :: ts) :
    separator b s =
      (t.kind == .comma, ⟨ts, (s.expectSeparator b).errors, (s.expectSeparator b).cut⟩) := by
  unfold separator
  simp only [State.expectSeparator_rest, h]

/-- Behind a comma the list goes on; behind its closing parenthesis, or where
there is none, it has ended. -/
theorem separator_rest (b : Bounds) (s : State) :
    (if (separator b s).1 then skipBalanced 1 (separator b s).2.rest
      else (separator b s).2.rest) = skipBalanced 1 s.rest := by
  rw [← skipBalanced_synchronize 0 s.rest]
  cases h : synchronize 0 s.rest with
  | nil =>
    rw [separator_of_synchronize_nil h]
    simp [skipBalanced]
  | cons t ts =>
    rw [separator_of_synchronize_cons h]
    have ht := isSeparator_of_synchronize h
    obtain ⟨kind, lexeme, p⟩ := t
    cases kind <;> simp_all [isSeparator, skipBalanced]

/-- The list behind an argument ends where the list in front of it does. -/
theorem separator_rest_of_synchronize {b : Bounds} {s : State} {ts : List Token}
    (h : synchronize 0 s.rest = synchronize 0 ts) :
    (if (separator b s).1 then skipBalanced 1 (separator b s).2.rest
      else (separator b s).2.rest) = skipBalanced 1 ts := by
  rw [separator_rest, ← skipBalanced_synchronize 0, h, skipBalanced_synchronize 0]

/-! ## 3. Where reading goes on -/

/-- **Where reading goes on is a matter of the parentheses alone**, whatever the
tokens and the limit are: behind a call whose head is followed by an opening
parenthesis, behind the group that this parenthesis opens; behind an argument,
at the same next separator as in front of it; behind an argument list, behind
the parenthesis that closes it. -/
theorem rest_eq (b : Bounds) :
    (∀ depth head s, (call b depth head s).2.rest =
      if opensParen s.rest then skipBalanced 0 s.rest else s.rest) ∧
    (∀ depth s, synchronize 0 (argument b depth s).2.rest = synchronize 0 s.rest) ∧
    ∀ depth s, (arguments b depth [] s).2.rest = skipBalanced 1 s.rest := by
  apply induction
    (C := fun _ _ s r => r.2.rest = if opensParen s.rest then skipBalanced 0 s.rest else s.rest)
    (A := fun _ s r => synchronize 0 r.2.rest = synchronize 0 s.rest)
    (L := fun _ s r => r.2.rest = skipBalanced 1 s.rest)
  case headless =>
    intro depth head s hopen
    simp [hopen]
  case skipped =>
    intro depth head s hopen _
    simp [hopen]
  case empty =>
    intro depth head s hopen _ hclose
    rw [if_pos hopen, skipBalanced_of_opensParen hopen, skipBalanced_of_closesParen hclose]
  case applied =>
    intro depth head s hopen _ _ ih
    rw [if_pos hopen, skipBalanced_of_opensParen hopen]
    exact ih
  case ended => simp
  case nested =>
    intro depth s t ts hrest hbegins ih
    rw [hrest, synchronize_of_beginsCall hbegins, ih]
    dsimp only
    split
    · next hopen => exact synchronize_group 0 hopen
    · rfl
  case word =>
    intro depth s t ts hrest hword _
    rw [hrest, synchronize_of_isWord ts hword]
  case missing => simp
  case group =>
    intro depth s t ts _ _
    exact synchronize_synchronize 0 s.rest
  case last =>
    intro depth s ih hlast
    have hsep := separator_rest_of_synchronize (b := b) ih
    rwa [hlast, if_neg Bool.false_ne_true] at hsep
  case more =>
    intro depth s ih hmore ihrest
    have hsep := separator_rest_of_synchronize (b := b) ih
    rw [hmore, if_pos rfl] at hsep
    rw [ihrest, hsep]

end Parse

end FilterQuery
