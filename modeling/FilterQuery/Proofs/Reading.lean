/-
FilterQuery.Proofs.Reading — what one step of reading a call tree does.

The reader is three functions that call each other: a call, one argument,
and the arguments up to the closing parenthesis. This module puts that
recursion into one induction principle (`induction`), with one case for
each thing a step can do, so that a fact about reading is proved by
saying what each step does to it. Nothing below unfolds the reader again.

## Two facts about every reading

Errors are only ever added, and the mark that the nesting limit has been
reported is only set together with the report (`State.Grows`). The second
is what lets a reading with no such error conclude that nothing was
skipped.
-/
import FilterQuery.Proofs.Grammar

namespace FilterQuery

namespace Parse

open Grammar

/-! ## 1. The accumulator -/

/-- The arguments read before have no influence on the arguments read next. -/
theorem arguments_eq_append (b : Bounds) (depth : Nat) (done : List Node) (s : State) :
    arguments b depth done s =
      (done.reverse ++ (arguments b depth [] s).1, (arguments b depth [] s).2) := by
  generalize hn : s.rest.length = n
  induction n using Nat.strongRecOn generalizing done s with
  | ind n ih =>
    rw [arguments_eq b depth done, arguments_eq b depth []]
    dsimp only
    split
    · next h =>
      have hlt := Nat.lt_of_lt_of_le (separator_length b _ h) (argument_length b depth s)
      rw [ih _ (hn ▸ hlt) (_ :: done) _ rfl, ih _ (hn ▸ hlt) [_] _ rfl]
      simp
    · simp

/-- The last argument of a call. -/
theorem arguments_last {b : Bounds} {depth : Nat} {s : State}
    (h : (separator b (argument b depth s).2).1 = false) :
    arguments b depth [] s =
      ([(argument b depth s).1], (separator b (argument b depth s).2).2) := by
  rw [arguments_eq]
  simp [h]

/-- An argument behind which another one follows. -/
theorem arguments_more {b : Bounds} {depth : Nat} {s : State}
    (h : (separator b (argument b depth s).2).1 = true) :
    arguments b depth [] s =
      ((argument b depth s).1 ::
        (arguments b depth [] (separator b (argument b depth s).2).2).1,
        (arguments b depth [] (separator b (argument b depth s).2).2).2) := by
  rw [arguments_eq]
  simp only [h, if_true]
  rw [arguments_eq_append]
  simp

/-! ## 2. Separators -/

theorem synchronize_of_isSeparator {t : Token} {ts : List Token} (h : isSeparator t = true) :
    synchronize 0 (t :: ts) = t :: ts := by
  obtain ⟨kind, lexeme, p⟩ := t
  cases kind <;> simp_all [isSeparator, synchronize]

/-- A separator is taken without an error. -/
theorem separator_of_isSeparator (b : Bounds) {t : Token} (ts : List Token)
    (errors : List SyntaxError) (cut : Bool) (ht : isSeparator t = true) :
    separator b ⟨t :: ts, errors, cut⟩ = (t.kind == .comma, ⟨ts, errors, cut⟩) := by
  have hexpect : State.expectSeparator ⟨t :: ts, errors, cut⟩ b = ⟨t :: ts, errors, cut⟩ := by
    simp [State.expectSeparator, ht]
  simp only [separator, hexpect, synchronize_of_isSeparator ht]

/-- Where no tokens are left, the closing parenthesis is missing. -/
theorem separator_of_nil {b : Bounds} {s : State} (hs : s.rest = []) :
    separator b s = (false, s.unexpected b .closeParen) := by
  obtain ⟨rest, errors, cut⟩ := s
  subst hs
  rfl

/-! ## 3. Growth -/

namespace State

/-- What every reading keeps: the errors found before stay, and the limit is
only marked as reported together with the report. -/
structure Grows (s s' : State) : Prop where
  errors : s.errors <:+ s'.errors
  cut : s'.cut = true → s.cut = true ∨ ∃ limit p, SyntaxError.nestingTooDeep limit p ∈ s'.errors

theorem Grows.refl (s : State) : s.Grows s := ⟨List.suffix_refl _, Or.inl⟩

theorem Grows.trans {s s' s'' : State} (h : s.Grows s') (h' : s'.Grows s'') : s.Grows s'' := by
  refine ⟨h.errors.trans h'.errors, ?_⟩
  intro hcut
  rcases h'.cut hcut with hcut' | hreported
  · rcases h.cut hcut' with hcut | ⟨limit, p, hmem⟩
    · exact Or.inl hcut
    · exact Or.inr ⟨limit, p, h'.errors.subset hmem⟩
  · exact Or.inr hreported

/-- Moving on in the tokens changes nothing that grows. -/
theorem Grows.withRest {s s' : State} (h : s.Grows s') (ts : List Token) :
    s.Grows { s' with rest := ts } := ⟨h.errors, h.cut⟩

theorem grows_report (s : State) (e : SyntaxError) : s.Grows (s.report e) :=
  ⟨List.suffix_cons _ _, Or.inl⟩

theorem grows_unexpected (s : State) (b : Bounds) (x : Expected) : s.Grows (s.unexpected b x) := by
  unfold unexpected
  split <;> exact grows_report _ _

theorem grows_announce (s : State) (head : Token) : s.Grows (s.announce head) := by
  unfold announce
  split
  · exact grows_report _ _
  · exact Grows.refl s

theorem grows_reportDepth (s : State) (b : Bounds) (p : Position) :
    s.Grows (s.reportDepth b p) := by
  unfold reportDepth
  split
  · exact Grows.refl s
  · exact ⟨List.suffix_cons _ _, fun _ => Or.inr ⟨b.limit, p, List.mem_cons_self⟩⟩

theorem grows_expectSeparator (s : State) (b : Bounds) : s.Grows (s.expectSeparator b) := by
  unfold expectSeparator
  split
  · split
    · exact Grows.refl s
    · exact grows_unexpected _ _ _
  · exact Grows.refl s

end State

theorem grows_separator (b : Bounds) (s : State) : s.Grows (separator b s).2 := by
  have hexpect := s.grows_expectSeparator b
  unfold separator
  dsimp only
  split
  · exact (hexpect.withRest []).trans (State.grows_unexpected _ _ _)
  · exact hexpect.withRest _

/-! ## 4. One step -/

theorem cons_of_opensParen {ts : List Token} (h : opensParen ts = true) :
    ∃ opening, ts = opening :: ts.tail ∧ opening.kind = .openParen := by
  cases ts with
  | nil => exact absurd h Bool.false_ne_true
  | cons t ts => exact ⟨t, rfl, by simpa [opensParen] using h⟩

theorem cons_of_closesParen {ts : List Token} (h : closesParen ts = true) :
    ∃ closing, ts = closing :: ts.tail ∧ closing.kind = .closeParen := by
  cases ts with
  | nil => exact absurd h Bool.false_ne_true
  | cons t ts => exact ⟨t, rfl, by simpa [closesParen] using h⟩

/-- A head with no opening parenthesis behind it is no call. -/
theorem call_of_headless {b : Bounds} {depth : Nat} {head : Token} {s : State}
    (h : opensParen s.rest = false) :
    call b depth head s = (.invalid head.position, (s.announce head).unexpected b .openParen) := by
  rw [call_eq]
  simp [h]

/-- A call nested too deep is skipped. -/
theorem call_of_limit_le {b : Bounds} {depth : Nat} {head : Token} {s : State}
    (hopen : opensParen s.rest = true) (hdepth : b.limit ≤ depth) :
    call b depth head s = (.invalid head.position,
      { (s.announce head).reportDepth b head.position with rest := skipBalanced 0 s.rest }) := by
  rw [call_eq]
  simp [hopen, hdepth]

/-- A call that is closed where it is opened has no arguments. -/
theorem call_of_closesParen {b : Bounds} {depth : Nat} {head : Token} {s : State}
    (hopen : opensParen s.rest = true) (hdepth : depth < b.limit)
    (hclose : closesParen s.rest.tail = true) :
    call b depth head s =
      (callNode head [], { s.announce head with rest := s.rest.tail.tail }) := by
  rw [call_eq]
  simp [hopen, hclose, Nat.not_le.mpr hdepth]

/-- Any other call has the arguments that are read behind its parenthesis. -/
theorem call_of_arguments {b : Bounds} {depth : Nat} {head : Token} {s : State}
    (hopen : opensParen s.rest = true) (hdepth : depth < b.limit)
    (hclose : closesParen s.rest.tail = false) :
    call b depth head s =
      (callNode head (arguments b depth [] { s.announce head with rest := s.rest.tail }).1,
        (arguments b depth [] { s.announce head with rest := s.rest.tail }).2) := by
  rw [call_eq]
  simp [hopen, hclose, Nat.not_le.mpr hdepth]

/-- An operator begins a call, whatever is behind it. -/
theorem beginsCall_of_operator {head : Token} {op : Operator} (h : head.kind = .operator op)
    (ts : List Token) : beginsCall head ts = true := by
  rw [beginsCall, h]

theorem announce_of_operator {head : Token} {op : Operator} (h : head.kind = .operator op)
    (s : State) : s.announce head = s := by
  rw [State.announce, h]

/-- A call of an operator that is not closed at once is the node of the operator and of
the arguments that are read behind the parenthesis. -/
theorem call_of_operator {b : Bounds} {depth : Nat} {head opening : Token} {op : Operator}
    {ts : List Token} (hop : head.kind = .operator op) (hopen : opening.kind = .openParen)
    (hdepth : depth < b.limit) (hclose : closesParen ts = false) (errors : List SyntaxError)
    (cut : Bool) :
    call b depth head ⟨opening :: ts, errors, cut⟩ =
      (.call op (arguments b depth [] ⟨ts, errors, cut⟩).1 head.position,
        (arguments b depth [] ⟨ts, errors, cut⟩).2) := by
  have hopens : opensParen (opening :: ts) = true := by simp [opensParen, hopen]
  rw [call_of_arguments (s := ⟨opening :: ts, errors, cut⟩) hopens hdepth hclose,
    announce_of_operator hop, callNode, hop]
  rfl

/-- Where no tokens are left, the argument is missing. -/
theorem argument_of_nil {b : Bounds} {depth : Nat} {s : State} (hs : s.rest = []) :
    argument b depth s = (.invalid b.stop, s.unexpected b .argument) := by
  rw [argument_eq, hs]

/-- An argument that begins a call is read as a call. -/
theorem argument_of_beginsCall {b : Bounds} {depth : Nat} {s : State} {t : Token}
    {ts : List Token} (hs : s.rest = t :: ts) (ht : beginsCall t ts = true) :
    argument b depth s = call b (depth + 1) t { s with rest := ts } := by
  obtain ⟨kind, lexeme, p⟩ := t
  rw [argument_eq, hs]
  cases kind <;> simp_all [beginsCall]

/-- A single token that begins no call is read as its node. -/
theorem argument_of_isWord {b : Bounds} {depth : Nat} {s : State} {t : Token}
    {ts : List Token} (hs : s.rest = t :: ts) (ht : isWord t = true)
    (hcall : beginsCall t ts = false) :
    argument b depth s = (Phrase.wordNode t, { s with rest := ts }) := by
  obtain ⟨kind, lexeme, p⟩ := t
  rw [argument_eq, hs]
  cases kind <;> simp_all [isWord, beginsCall, Phrase.wordNode]

/-- Nothing stands in front of a separator, and nothing is taken. -/
theorem argument_of_isSeparator {b : Bounds} {depth : Nat} {s : State} {t : Token}
    {ts : List Token} (hs : s.rest = t :: ts) (ht : isSeparator t = true) :
    argument b depth s = (.invalid t.position, s.report (.missingArgument t.position)) := by
  obtain ⟨kind, lexeme, p⟩ := t
  rw [argument_eq, hs]
  cases kind <;> simp_all [isSeparator]

/-- A group without a head is no argument, and the rest is left unread. -/
theorem argument_of_openParen {b : Bounds} {depth : Nat} {s : State} {t : Token}
    {ts : List Token} (hs : s.rest = t :: ts) (ht : t.kind = .openParen) :
    argument b depth s = (.invalid t.position,
      { s.unexpected b .argument with rest := synchronize 0 s.rest }) := by
  rw [argument_eq, hs]
  simp only [ht]

/-- A token begins a call, is an argument by itself, separates arguments, or
opens a group. -/
theorem token_cases (t : Token) (ts : List Token) :
    beginsCall t ts = true ∨ (isWord t = true ∧ beginsCall t ts = false) ∨
      isSeparator t = true ∨ t.kind = .openParen := by
  obtain ⟨kind, lexeme, p⟩ := t
  cases kind <;> simp [beginsCall, isWord, isSeparator]

/-! ## 5. Induction on a reading -/

theorem tail_lt_of_opensParen {s : State} {n : Nat} (hn : s.rest.length ≤ n)
    (h : opensParen s.rest = true) : s.rest.tail.length < n :=
  Nat.lt_of_lt_of_le (tail_length_of_opensParen h) hn

/-- What is true of a call whatever stands behind its head: it is true of each
of the four forms a call may have. -/
theorem call_cases {b : Bounds} {C : Nat → Token → State → Node × State → Prop}
    (depth : Nat) (head : Token) (s : State)
    (headless : opensParen s.rest = false →
      C depth head s (.invalid head.position, (s.announce head).unexpected b .openParen))
    (skipped : opensParen s.rest = true → b.limit ≤ depth →
      C depth head s (.invalid head.position,
        { (s.announce head).reportDepth b head.position with rest := skipBalanced 0 s.rest }))
    (empty : opensParen s.rest = true → depth < b.limit → closesParen s.rest.tail = true →
      C depth head s (callNode head [], { s.announce head with rest := s.rest.tail.tail }))
    (applied : opensParen s.rest = true → depth < b.limit → closesParen s.rest.tail = false →
      C depth head s
        (callNode head (arguments b depth [] { s.announce head with rest := s.rest.tail }).1,
          (arguments b depth [] { s.announce head with rest := s.rest.tail }).2)) :
    C depth head s (call b depth head s) := by
  cases hopen : opensParen s.rest with
  | false =>
    rw [call_of_headless hopen]
    exact headless hopen
  | true =>
    rcases Nat.lt_or_ge depth b.limit with hdepth | hdepth
    · cases hclose : closesParen s.rest.tail with
      | true =>
        rw [call_of_closesParen hopen hdepth hclose]
        exact empty hopen hdepth hclose
      | false =>
        rw [call_of_arguments hopen hdepth hclose]
        exact applied hopen hdepth hclose
    · rw [call_of_limit_le hopen hdepth]
      exact skipped hopen hdepth

/-- What is true of an argument whatever the next token is. -/
theorem argument_cases {b : Bounds} {A : Nat → State → Node × State → Prop}
    (depth : Nat) (s : State)
    (ended : s.rest = [] → A depth s (.invalid b.stop, s.unexpected b .argument))
    (nested : ∀ t ts, s.rest = t :: ts → beginsCall t ts = true →
      A depth s (call b (depth + 1) t { s with rest := ts }))
    (word : ∀ t ts, s.rest = t :: ts → isWord t = true → beginsCall t ts = false →
      A depth s (Phrase.wordNode t, { s with rest := ts }))
    (missing : ∀ t ts, s.rest = t :: ts → isSeparator t = true →
      A depth s (.invalid t.position, s.report (.missingArgument t.position)))
    (group : ∀ t ts, s.rest = t :: ts → t.kind = .openParen →
      A depth s (.invalid t.position,
        { s.unexpected b .argument with rest := synchronize 0 s.rest })) :
    A depth s (argument b depth s) := by
  cases hs : s.rest with
  | nil =>
    rw [argument_of_nil hs]
    exact ended hs
  | cons t ts =>
    rcases token_cases t ts with hcall | ⟨hword, hcall⟩ | hsep | hopen
    · rw [argument_of_beginsCall hs hcall]
      exact nested t ts hs hcall
    · rw [argument_of_isWord hs hword hcall]
      exact word t ts hs hword hcall
    · rw [argument_of_isSeparator hs hsep]
      exact missing t ts hs hsep
    · rw [argument_of_openParen hs hopen]
      exact group t ts hs hopen

/-- To prove something of every reading, prove it of each step of the three
functions, given that it is true of the readings inside that step. The
induction is on the number of tokens ahead; where an argument takes none,
the order of the three functions decides. -/
theorem induction {b : Bounds}
    {C : Nat → Token → State → Node × State → Prop}
    {A : Nat → State → Node × State → Prop}
    {L : Nat → State → List Node × State → Prop}
    (headless : ∀ depth head s, opensParen s.rest = false →
      C depth head s (.invalid head.position, (s.announce head).unexpected b .openParen))
    (skipped : ∀ depth head s, opensParen s.rest = true → b.limit ≤ depth →
      C depth head s (.invalid head.position,
        { (s.announce head).reportDepth b head.position with rest := skipBalanced 0 s.rest }))
    (empty : ∀ depth head s, opensParen s.rest = true → depth < b.limit →
      closesParen s.rest.tail = true →
      C depth head s (callNode head [], { s.announce head with rest := s.rest.tail.tail }))
    (applied : ∀ depth head s, opensParen s.rest = true → depth < b.limit →
      closesParen s.rest.tail = false →
      L depth { s.announce head with rest := s.rest.tail }
        (arguments b depth [] { s.announce head with rest := s.rest.tail }) →
      C depth head s
        (callNode head (arguments b depth [] { s.announce head with rest := s.rest.tail }).1,
          (arguments b depth [] { s.announce head with rest := s.rest.tail }).2))
    (ended : ∀ depth s, s.rest = [] → A depth s (.invalid b.stop, s.unexpected b .argument))
    (nested : ∀ depth s t ts, s.rest = t :: ts → beginsCall t ts = true →
      C (depth + 1) t { s with rest := ts } (call b (depth + 1) t { s with rest := ts }) →
      A depth s (call b (depth + 1) t { s with rest := ts }))
    (word : ∀ depth s t ts, s.rest = t :: ts → isWord t = true → beginsCall t ts = false →
      A depth s (Phrase.wordNode t, { s with rest := ts }))
    (missing : ∀ depth s t ts, s.rest = t :: ts → isSeparator t = true →
      A depth s (.invalid t.position, s.report (.missingArgument t.position)))
    (group : ∀ depth s t ts, s.rest = t :: ts → t.kind = .openParen →
      A depth s (.invalid t.position,
        { s.unexpected b .argument with rest := synchronize 0 s.rest }))
    (last : ∀ depth s, A depth s (argument b depth s) →
      (separator b (argument b depth s).2).1 = false →
      L depth s ([(argument b depth s).1], (separator b (argument b depth s).2).2))
    (more : ∀ depth s, A depth s (argument b depth s) →
      (separator b (argument b depth s).2).1 = true →
      L depth (separator b (argument b depth s).2).2
        (arguments b depth [] (separator b (argument b depth s).2).2) →
      L depth s
        ((argument b depth s).1 ::
          (arguments b depth [] (separator b (argument b depth s).2).2).1,
          (arguments b depth [] (separator b (argument b depth s).2).2).2)) :
    (∀ depth head s, C depth head s (call b depth head s)) ∧
      (∀ depth s, A depth s (argument b depth s)) ∧
      ∀ depth s, L depth s (arguments b depth [] s) := by
  have key : ∀ n s, s.rest.length ≤ n →
      (∀ depth head, C depth head s (call b depth head s)) ∧
        (∀ depth, A depth s (argument b depth s)) ∧
        ∀ depth, L depth s (arguments b depth [] s) := by
    intro n
    induction n using Nat.strongRecOn with
    | ind n ih =>
      intro s hs
      have hcall : ∀ depth head, C depth head s (call b depth head s) := by
        intro depth head
        refine call_cases depth head s (headless depth head s) (skipped depth head s)
          (empty depth head s) ?_
        intro hopen hdepth hclose
        have hlt := tail_lt_of_opensParen hs hopen
        exact applied depth head s hopen hdepth hclose
          ((ih _ hlt { s.announce head with rest := s.rest.tail } (Nat.le_refl _)).2.2 depth)
      have hargument : ∀ depth, A depth s (argument b depth s) := by
        intro depth
        refine argument_cases depth s (ended depth s) ?_ (word depth s) (missing depth s)
          (group depth s)
        intro t ts hrest hbegins
        have hlt : ts.length < n := by
          rw [hrest, List.length_cons] at hs
          exact hs
        exact nested depth s t ts hrest hbegins
          ((ih _ hlt { s with rest := ts } (Nat.le_refl _)).1 (depth + 1) t)
      refine ⟨hcall, hargument, ?_⟩
      intro depth
      by_cases hmore : (separator b (argument b depth s).2).1 = true
      · rw [arguments_more hmore]
        have hlt := Nat.lt_of_lt_of_le (separator_length b _ hmore)
          (Nat.le_trans (argument_length b depth s) hs)
        exact more depth s (hargument depth) hmore ((ih _ hlt _ (Nat.le_refl _)).2.2 depth)
      · have hlast := Bool.eq_false_iff.mpr hmore
        rw [arguments_last hlast]
        exact last depth s (hargument depth) hlast
  exact ⟨fun depth head s => (key _ s (Nat.le_refl _)).1 depth head,
    fun depth s => (key _ s (Nat.le_refl _)).2.1 depth,
    fun depth s => (key _ s (Nat.le_refl _)).2.2 depth⟩

/-- Every reading grows. -/
theorem grows (b : Bounds) :
    (∀ depth head (s : State), s.Grows (call b depth head s).2) ∧
      (∀ depth (s : State), s.Grows (argument b depth s).2) ∧
      ∀ depth (s : State), s.Grows (arguments b depth [] s).2 := by
  apply induction (C := fun _ _ s r => s.Grows r.2) (A := fun _ s r => s.Grows r.2)
    (L := fun _ s r => s.Grows r.2)
  case headless =>
    intro depth head s _
    exact (s.grows_announce head).trans (State.grows_unexpected _ _ _)
  case skipped =>
    intro depth head s _ _
    exact ((s.grows_announce head).trans (State.grows_reportDepth _ _ _)).withRest _
  case empty =>
    intro depth head s _ _ _
    exact (s.grows_announce head).withRest _
  case applied =>
    intro depth head s _ _ _ ih
    exact ((s.grows_announce head).withRest _).trans ih
  case ended => exact fun _ s _ => s.grows_unexpected b _
  case nested =>
    intro depth s t ts _ _ ih
    exact ((State.Grows.refl s).withRest ts).trans ih
  case word => exact fun _ s _ ts _ _ _ => (State.Grows.refl s).withRest ts
  case missing => exact fun _ s _ _ _ _ => s.grows_report _
  case group => exact fun _ s _ _ _ _ => (s.grows_unexpected b _).withRest _
  case last => exact fun _ s ih _ => ih.trans (grows_separator b _)
  case more => exact fun _ s ih _ ihrest => (ih.trans (grows_separator b _)).trans ihrest

/-! ## 6. Whole token sequences -/

theorem query_of_beginsCall {b : Bounds} {t : Token} {ts : List Token}
    (h : beginsCall t ts = true) :
    query b (t :: ts) =
      { ast := if (call b 0 t ⟨ts, [], false⟩).1.isInvalid then none
          else some (call b 0 t ⟨ts, [], false⟩).1
        errors := (call b 0 t ⟨ts, [], false⟩).2.expectEnd.errors.reverse } := by
  unfold query
  dsimp only
  rw [if_pos h]

theorem query_of_not_beginsCall {b : Bounds} {t : Token} {ts : List Token}
    (h : beginsCall t ts = false) :
    query b (t :: ts) =
      { ast := none, errors := [.unexpectedToken .operatorCall t.kind t.position] } := by
  unfold query
  dsimp only
  rw [if_neg (Bool.eq_false_iff.mp h)]

end Parse

end FilterQuery
