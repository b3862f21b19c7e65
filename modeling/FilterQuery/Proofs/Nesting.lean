/-
FilterQuery.Proofs.Nesting — what the nesting limit takes from a reading.

A call that is nested too deep is not read but skipped as a group, and an
invalid node stands for it. Two readings of the same tokens under
different limits therefore differ in this and in nothing else
(`Parsed.ofTokens_truncates`): the lower limit gives the tree of the
higher one with every call below that many levels taken out
(`Node.truncate`), and says nothing the higher limit does not say, except
that the limit was passed, which it says once.

## How the proof goes

The two readings stay side by side because where a reading goes on is a
matter of the parentheses alone (`rest_eq`). What is left is to compare
nodes and errors: along every reading under the higher limit, the one
under the lower limit has fewer errors (`State.Fewer`) and the truncated
node (`truncates`).

A reading that has reported no limit has skipped nothing, so every higher
limit gives the very same reading (`eq_of_not_cut`). This needs the mark
of the state to be true to the errors, which every step keeps
(`State.Marks`).
-/
import FilterQuery.Proofs.Matching

namespace FilterQuery

/-! ## 1. Trees without their deep calls -/

namespace Node

mutual

/-- The tree with only so many levels of calls: a call below them is replaced
by an invalid node in its place. -/
def truncate (levels : Nat) : Node → Node
  | call op args p =>
    match levels with
    | 0 => invalid p
    | levels + 1 => call op (truncateAll levels args) p
  | field name p => field name p
  | literal value p => literal value p
  | invalid p => invalid p

/-- The same for trees that stand side by side. -/
def truncateAll (levels : Nat) : List Node → List Node
  | [] => []
  | n :: ns => truncate levels n :: truncateAll levels ns

end

theorem truncateAll_eq_map (levels : Nat) (ns : List Node) :
    truncateAll levels ns = ns.map (truncate levels) := by
  induction ns with
  | nil => rfl
  | cons n ns ih => rw [truncateAll, ih, List.map_cons]

/-- No more levels are left than were asked for. -/
theorem nesting_truncate_le (levels : Nat) (n : Node) : (n.truncate levels).nesting ≤ levels := by
  induction n using induction generalizing levels with
  | call op args p ih =>
    cases levels with
    | zero => simp [truncate, nesting]
    | succ levels =>
      rw [truncate, nesting, Nat.add_le_add_iff_right, truncateAll_eq_map, nestingAmong_le_iff,
        List.forall_mem_map]
      exact fun a ha => ih a ha levels
  | field name p => simp [truncate, nesting]
  | literal value p => simp [truncate, nesting]
  | invalid p => simp [truncate, nesting]

/-- What is missing stays missing. -/
theorem isInvalid_truncate {levels : Nat} {n : Node} (h : n.isInvalid = true) :
    (n.truncate levels).isInvalid = true := by
  cases n with
  | invalid p => rfl
  | _ => exact absurd h Bool.false_ne_true

end Node

/-- Whether an error is the report that calls are nested too deep. -/
def SyntaxError.isNestingTooDeep : SyntaxError → Bool
  | nestingTooDeep _ _ => true
  | _ => false

namespace Parse

open Grammar

theorem truncate_callNode_zero (head : Token) (args : List Node) :
    (callNode head args).truncate 0 = .invalid head.position := by
  unfold callNode
  split <;> rfl

theorem truncate_callNode_succ (levels : Nat) (head : Token) (args : List Node) :
    (callNode head args).truncate (levels + 1) =
      callNode head (args.map (Node.truncate levels)) := by
  unfold callNode
  split
  · rw [Node.truncate, Node.truncateAll_eq_map]
  · rfl

theorem truncate_wordNode (levels : Nat) (t : Token) :
    (Phrase.wordNode t).truncate levels = Phrase.wordNode t := by
  unfold Phrase.wordNode
  split <;> rfl

/-! ## 2. The mark and the report -/

namespace State

/-- Whether the limit is marked as reported just when it has been, and has been
reported once at most. -/
def Marked (s : State) : Prop :=
  s.errors.countP SyntaxError.isNestingTooDeep = s.cut.toNat

/-- What every reading keeps of the mark: it is not taken back, and it stays
true to the errors. -/
structure Marks (s s' : State) : Prop where
  kept : s.cut = true → s'.cut = true
  marked : s.Marked → s'.Marked

theorem Marks.refl (s : State) : s.Marks s := ⟨id, id⟩

theorem Marks.trans {s s' s'' : State} (h : s.Marks s') (h' : s'.Marks s'') : s.Marks s'' :=
  ⟨h'.kept ∘ h.kept, h'.marked ∘ h.marked⟩

/-- What is not marked at the end has not been marked before. -/
theorem Marks.cut_eq_false {s s' : State} (h : s.Marks s') (hcut : s'.cut = false) :
    s.cut = false := by
  rw [Bool.eq_false_iff] at hcut ⊢
  exact fun hs => hcut (h.kept hs)

theorem Marks.withRest {s s' : State} (h : s.Marks s') (ts : List Token) :
    s.Marks { s' with rest := ts } := ⟨h.kept, h.marked⟩

theorem marks_report (s : State) {e : SyntaxError} (he : e.isNestingTooDeep = false) :
    s.Marks (s.report e) := by
  refine ⟨id, ?_⟩
  intro h
  unfold Marked report
  rw [List.countP_cons_of_neg (by simp [he])]
  exact h

theorem marks_unexpected (s : State) (b : Bounds) (x : Expected) :
    s.Marks (s.unexpected b x) := by
  unfold unexpected
  split <;> exact marks_report s rfl

theorem marks_announce (s : State) (head : Token) : s.Marks (s.announce head) := by
  unfold announce
  split
  · exact marks_report s rfl
  · exact Marks.refl s

/-- The limit is reported together with its mark, and not when it is marked. -/
theorem marks_reportDepth (s : State) (b : Bounds) (p : Position) :
    s.Marks (s.reportDepth b p) := by
  unfold reportDepth
  split
  · exact Marks.refl s
  · next hcut =>
    refine ⟨fun _ => rfl, ?_⟩
    intro h
    have hnone : s.cut.toNat = 0 := by simp [hcut]
    unfold Marked at h ⊢
    rw [hnone] at h
    dsimp only [report]
    rw [List.countP_cons_of_pos rfl, h]
    rfl

theorem marks_expectSeparator (s : State) (b : Bounds) : s.Marks (s.expectSeparator b) := by
  unfold expectSeparator
  split
  · split
    · exact Marks.refl s
    · exact marks_unexpected s b _
  · exact Marks.refl s

end State

theorem marks_separator (b : Bounds) (s : State) : s.Marks (separator b s).2 := by
  cases h : synchronize 0 s.rest with
  | nil =>
    rw [separator_of_synchronize_nil h]
    exact ((s.marks_expectSeparator b).withRest []).trans (State.marks_unexpected _ b _)
  | cons t ts =>
    rw [separator_of_synchronize_cons h]
    exact (s.marks_expectSeparator b).withRest ts

/-- Every reading keeps the mark. -/
theorem marks (b : Bounds) :
    (∀ depth head (s : State), s.Marks (call b depth head s).2) ∧
      (∀ depth (s : State), s.Marks (argument b depth s).2) ∧
      ∀ depth (s : State), s.Marks (arguments b depth [] s).2 := by
  apply induction (C := fun _ _ s r => s.Marks r.2) (A := fun _ s r => s.Marks r.2)
    (L := fun _ s r => s.Marks r.2)
  case headless =>
    intro depth head s _
    exact (s.marks_announce head).trans (State.marks_unexpected _ b _)
  case skipped =>
    intro depth head s _ _
    exact ((s.marks_announce head).trans (State.marks_reportDepth _ b _)).withRest _
  case empty =>
    intro depth head s _ _ _
    exact (s.marks_announce head).withRest _
  case applied =>
    intro depth head s _ _ _ ih
    exact ((s.marks_announce head).withRest _).trans ih
  case ended => exact fun _ s _ => s.marks_unexpected b _
  case nested =>
    intro depth s t ts _ _ ih
    exact ((State.Marks.refl s).withRest ts).trans ih
  case word => exact fun _ s _ ts _ _ _ => (State.Marks.refl s).withRest ts
  case missing => exact fun _ s _ _ _ _ => s.marks_report rfl
  case group => exact fun _ s _ _ _ _ => (s.marks_unexpected b _).withRest _
  case last => exact fun _ s ih _ => ih.trans (marks_separator b _)
  case more => exact fun _ s ih _ ihrest => (ih.trans (marks_separator b _)).trans ihrest

/-! ## 3. A limit that was not reached -/

/-- The same bounds with another limit. -/
def Bounds.withLimit (b : Bounds) (limit : Nat) : Bounds := { b with limit := limit }

/-- Taking a separator is no matter of the limit. -/
theorem separator_withLimit (b : Bounds) (limit : Nat) (s : State) :
    separator (b.withLimit limit) s = separator b s := rfl

/-- **A reading that reports no limit is the reading under every higher limit.** -/
theorem eq_of_not_cut {b : Bounds} {limit : Nat} (hlimit : b.limit ≤ limit) :
    (∀ depth head s, (call b depth head s).2.cut = false →
      call (b.withLimit limit) depth head s = call b depth head s) ∧
    (∀ depth s, (argument b depth s).2.cut = false →
      argument (b.withLimit limit) depth s = argument b depth s) ∧
    ∀ depth s, (arguments b depth [] s).2.cut = false →
      arguments (b.withLimit limit) depth [] s = arguments b depth [] s := by
  apply induction
    (C := fun depth head s r => r.2.cut = false → call (b.withLimit limit) depth head s = r)
    (A := fun depth s r => r.2.cut = false → argument (b.withLimit limit) depth s = r)
    (L := fun depth s r => r.2.cut = false → arguments (b.withLimit limit) depth [] s = r)
  case headless =>
    intro depth head s hopen _
    exact call_of_headless hopen
  case skipped =>
    intro depth head s _ _ hcut
    have hreported : ((s.announce head).reportDepth b head.position).cut = false := hcut
    unfold State.reportDepth at hreported
    split at hreported
    · next htrue => exact absurd (htrue.symm.trans hreported) (by decide)
    · exact absurd hreported (by simp)
  case empty =>
    intro depth head s hopen hdepth hclose _
    exact call_of_closesParen hopen (Nat.lt_of_lt_of_le hdepth hlimit) hclose
  case applied =>
    intro depth head s hopen hdepth hclose ih hcut
    rw [call_of_arguments hopen (Nat.lt_of_lt_of_le hdepth hlimit) hclose, ih hcut]
  case ended =>
    intro depth s hs _
    exact argument_of_nil hs
  case nested =>
    intro depth s t ts hs hbegins ih hcut
    rw [argument_of_beginsCall hs hbegins]
    exact ih hcut
  case word =>
    intro depth s t ts hs hword hbegins _
    exact argument_of_isWord hs hword hbegins
  case missing =>
    intro depth s t ts hs hsep _
    exact argument_of_isSeparator hs hsep
  case group =>
    intro depth s t ts hs hopen _
    exact argument_of_openParen hs hopen
  case last =>
    intro depth s ih hlast hcut
    have hargument := ih ((marks_separator b _).cut_eq_false hcut)
    rw [arguments_last, hargument, separator_withLimit]
    rw [hargument, separator_withLimit, hlast]
  case more =>
    intro depth s ih hmore ihrest hcut
    have hnext := ((marks b).2.2 depth _).cut_eq_false hcut
    have hargument := ih ((marks_separator b _).cut_eq_false hnext)
    rw [arguments_more, hargument, separator_withLimit, ihrest hcut]
    rw [hargument, separator_withLimit, hmore]

/-! ## 4. A limit that was passed -/

namespace State

/-- The errors other than the report that calls are nested too deep. -/
def others (s : State) : List SyntaxError := s.errors.filter fun e => !e.isNestingTooDeep

/-- Whether two readings are at the same place, and the first of them has said
nothing but what the second has said, the report of the limit aside. -/
structure Fewer (s s' : State) : Prop where
  rest : s.rest = s'.rest
  others : s.others.Sublist s'.others

theorem Fewer.refl (s : State) : s.Fewer s := ⟨rfl, List.Sublist.refl _⟩

theorem Fewer.withRest {s s' : State} (h : s.Fewer s') {ts us : List Token} (hts : ts = us) :
    Fewer { s with rest := ts } { s' with rest := us } := ⟨hts, h.others⟩

theorem Fewer.report {s s' : State} (h : s.Fewer s') (e : SyntaxError) :
    (s.report e).Fewer (s'.report e) := by
  refine ⟨h.rest, ?_⟩
  simp only [State.others, State.report, List.filter_cons]
  split
  · exact h.others.cons_cons e
  · exact h.others

theorem Fewer.unexpected {s s' : State} (h : s.Fewer s') (b : Bounds) (x : Expected) :
    (s.unexpected b x).Fewer (s'.unexpected b x) := by
  unfold State.unexpected
  rw [h.rest]
  split <;> exact h.report _

theorem Fewer.announce {s s' : State} (h : s.Fewer s') (head : Token) :
    (s.announce head).Fewer (s'.announce head) := by
  unfold State.announce
  split
  · exact h.report _
  · exact h

theorem Fewer.expectSeparator {s s' : State} (h : s.Fewer s') (b : Bounds) :
    (s.expectSeparator b).Fewer (s'.expectSeparator b) := by
  unfold State.expectSeparator
  rw [h.rest]
  split
  · split
    · exact h
    · exact h.unexpected b _
  · exact h

/-- The report of the limit does not count. -/
theorem Fewer.reportDepth {s s' : State} (h : s.Fewer s') (b : Bounds) (p : Position) :
    (s.reportDepth b p).Fewer s' := by
  unfold State.reportDepth
  split
  · exact h
  · exact ⟨h.rest, h.others⟩

/-- A call that is skipped says less than one that is read, if both end at the
same place. -/
theorem Fewer.skipped {s s' s'' : State} {b : Bounds} {head : Token} (h : s.Fewer s')
    (hgrows : (s'.announce head).Grows s'') (hrest : s''.rest = skipBalanced 0 s'.rest) :
    Fewer { (s.announce head).reportDepth b head.position with rest := skipBalanced 0 s.rest }
      s'' := by
  have hothers := ((h.announce head).reportDepth b head.position).others
  refine ⟨?_, hothers.trans (hgrows.errors.sublist.filter _)⟩
  rw [hrest, h.rest]

end State

/-- The next separator is the same for two readings at the same place. -/
theorem fewer_separator {b : Bounds} {s s' : State} (h : s.Fewer s') :
    (separator b s).1 = (separator b s').1 ∧ (separator b s).2.Fewer (separator b s').2 := by
  have hexpect := h.expectSeparator b
  cases hsync : synchronize 0 s.rest with
  | nil =>
    have hsync' := h.rest ▸ hsync
    rw [separator_of_synchronize_nil hsync, separator_of_synchronize_nil hsync']
    exact ⟨rfl, (hexpect.withRest (Eq.refl [])).unexpected b .closeParen⟩
  | cons t ts =>
    have hsync' := h.rest ▸ hsync
    rw [separator_of_synchronize_cons hsync, separator_of_synchronize_cons hsync']
    exact ⟨rfl, hexpect.withRest rfl⟩

/-- **The lower limit gives the truncated node, and fewer errors.** A call that
has some calls around it may hold as many levels as the limit leaves. -/
theorem truncates {b : Bounds} {limit : Nat} (hlimit : b.limit ≤ limit) :
    (∀ depth head s', ∀ s : State, s.Fewer s' →
      (call b depth head s).1 =
        (call (b.withLimit limit) depth head s').1.truncate (b.limit - depth) ∧
      (call b depth head s).2.Fewer (call (b.withLimit limit) depth head s').2) ∧
    (∀ depth s', ∀ s : State, s.Fewer s' → depth < b.limit →
      (argument b depth s).1 =
        (argument (b.withLimit limit) depth s').1.truncate (b.limit - (depth + 1)) ∧
      (argument b depth s).2.Fewer (argument (b.withLimit limit) depth s').2) ∧
    ∀ depth s', ∀ s : State, s.Fewer s' → depth < b.limit →
      (arguments b depth [] s).1 =
        (arguments (b.withLimit limit) depth [] s').1.map
          (Node.truncate (b.limit - (depth + 1))) ∧
      (arguments b depth [] s).2.Fewer (arguments (b.withLimit limit) depth [] s').2 := by
  apply induction (b := b.withLimit limit)
    (C := fun depth head s' r' => ∀ s : State, s.Fewer s' →
      (call b depth head s).1 = r'.1.truncate (b.limit - depth) ∧
      (call b depth head s).2.Fewer r'.2)
    (A := fun depth s' r' => ∀ s : State, s.Fewer s' → depth < b.limit →
      (argument b depth s).1 = r'.1.truncate (b.limit - (depth + 1)) ∧
      (argument b depth s).2.Fewer r'.2)
    (L := fun depth s' r' => ∀ s : State, s.Fewer s' → depth < b.limit →
      (arguments b depth [] s).1 = r'.1.map (Node.truncate (b.limit - (depth + 1))) ∧
      (arguments b depth [] s).2.Fewer r'.2)
  case headless =>
    intro depth head s' hopen s h
    rw [call_of_headless (h.rest ▸ hopen)]
    exact ⟨rfl, (h.announce head).unexpected b _⟩
  case skipped =>
    intro depth head s' hopen hdepth s h
    rw [call_of_limit_le (h.rest ▸ hopen) (Nat.le_trans hlimit hdepth)]
    exact ⟨rfl, h.skipped ((State.grows_reportDepth _ _ _).withRest _) rfl⟩
  case empty =>
    intro depth head s' hopen hdepth hclose s h
    rcases Nat.lt_or_ge depth b.limit with hlt | hle
    · obtain ⟨levels, hlevels⟩ : ∃ levels, b.limit - depth = levels + 1 :=
        ⟨b.limit - (depth + 1), by omega⟩
      rw [call_of_closesParen (h.rest ▸ hopen) hlt (h.rest ▸ hclose), hlevels,
        truncate_callNode_succ]
      exact ⟨rfl, (h.announce head).withRest (by rw [h.rest])⟩
    · rw [call_of_limit_le (h.rest ▸ hopen) hle, Nat.sub_eq_zero_of_le hle,
        truncate_callNode_zero]
      refine ⟨rfl, h.skipped ((State.Grows.refl _).withRest _) ?_⟩
      rw [skipBalanced_of_opensParen hopen, skipBalanced_of_closesParen hclose]
  case applied =>
    intro depth head s' hopen hdepth hclose ih s h
    rcases Nat.lt_or_ge depth b.limit with hlt | hle
    · have hlevels : b.limit - depth = b.limit - (depth + 1) + 1 := by omega
      obtain ⟨hnodes, hrest⟩ := ih { s.announce head with rest := s.rest.tail }
        ((h.announce head).withRest (by rw [h.rest])) hlt
      rw [call_of_arguments (h.rest ▸ hopen) hlt (h.rest ▸ hclose), hlevels,
        truncate_callNode_succ, hnodes]
      exact ⟨rfl, hrest⟩
    · rw [call_of_limit_le (h.rest ▸ hopen) hle, Nat.sub_eq_zero_of_le hle,
        truncate_callNode_zero]
      refine ⟨rfl, h.skipped (((State.Grows.refl _).withRest _).trans ((grows _).2.2 _ _)) ?_⟩
      rw [(rest_eq _).2.2, skipBalanced_of_opensParen hopen]
  case ended =>
    intro depth s' hs s h _
    rw [argument_of_nil (h.rest.trans hs)]
    exact ⟨rfl, h.unexpected b _⟩
  case nested =>
    intro depth s' t ts hs hbegins ih s h hdepth
    rw [argument_of_beginsCall (h.rest.trans hs) hbegins]
    exact ih _ (h.withRest rfl)
  case word =>
    intro depth s' t ts hs hword hbegins s h _
    rw [argument_of_isWord (h.rest.trans hs) hword hbegins, truncate_wordNode]
    exact ⟨rfl, h.withRest rfl⟩
  case missing =>
    intro depth s' t ts hs hsep s h _
    rw [argument_of_isSeparator (h.rest.trans hs) hsep]
    exact ⟨rfl, h.report _⟩
  case group =>
    intro depth s' t ts hs hopen s h _
    rw [argument_of_openParen (h.rest.trans hs) hopen]
    exact ⟨rfl, (h.unexpected b _).withRest (by rw [h.rest])⟩
  case last =>
    intro depth s' ih hlast s h hdepth
    obtain ⟨hnode, hfewer⟩ := ih s h hdepth
    obtain ⟨hsame, hnext⟩ := fewer_separator (b := b) hfewer
    rw [arguments_last (hsame.trans hlast), hnode]
    exact ⟨rfl, hnext⟩
  case more =>
    intro depth s' ih hmore ihrest s h hdepth
    obtain ⟨hnode, hfewer⟩ := ih s h hdepth
    obtain ⟨hsame, hnext⟩ := fewer_separator (b := b) hfewer
    obtain ⟨hnodes, hrest⟩ := ihrest _ hnext hdepth
    rw [arguments_more (hsame.trans hmore), hnode, hnodes]
    exact ⟨rfl, hrest⟩

/-! ## 5. Whole token sequences -/

/-- Without a report, nothing has been marked as reported. -/
theorem State.Marked.cut_eq_false {s : State} (h : s.Marked)
    (hnone : ∀ e ∈ s.errors, e.isNestingTooDeep = false) : s.cut = false := by
  unfold State.Marked at h
  rw [List.countP_eq_zero.mpr fun e he => by simp [hnone e he]] at h
  cases hcut : s.cut with
  | false => rfl
  | true => simp [hcut] at h

theorem State.marks_expectEnd (s : State) : s.Marks s.expectEnd := by
  unfold State.expectEnd
  split
  · exact s.marks_report rfl
  · exact State.Marks.refl s

theorem State.Fewer.expectEnd {s s' : State} (h : s.Fewer s') : s.expectEnd.Fewer s'.expectEnd := by
  unfold State.expectEnd
  rw [h.rest]
  split
  · exact h.report _
  · exact h

theorem query_truncates {b : Bounds} {limit : Nat} (hlimit : b.limit ≤ limit)
    (tokens : List Token) :
    (query b tokens).ast =
      ((query (b.withLimit limit) tokens).ast.map (Node.truncate b.limit)).filter
        (fun n => !n.isInvalid) ∧
    ((query b tokens).errors.filter fun e => !e.isNestingTooDeep).Sublist
      ((query (b.withLimit limit) tokens).errors.filter fun e => !e.isNestingTooDeep) := by
  cases tokens with
  | nil => exact ⟨rfl, List.Sublist.refl _⟩
  | cons t ts =>
    cases hbegins : beginsCall t ts with
    | false =>
      rw [query_of_not_beginsCall hbegins, query_of_not_beginsCall hbegins]
      exact ⟨rfl, List.Sublist.refl _⟩
    | true =>
      obtain ⟨hnode, hfewer⟩ := (truncates hlimit).1 0 t ⟨ts, [], false⟩ _ (State.Fewer.refl _)
      rw [query_of_beginsCall hbegins, query_of_beginsCall hbegins]
      dsimp only
      refine ⟨?_, ?_⟩
      · rw [hnode, Nat.sub_zero]
        generalize (call (b.withLimit limit) 0 t ⟨ts, [], false⟩).1 = n
        cases hn : n.isInvalid with
        | true => simp [Node.isInvalid_truncate hn]
        | false => simp [Option.filter, apply_ite]
      · rw [List.filter_reverse, List.filter_reverse, List.reverse_sublist]
        exact hfewer.expectEnd.others

/-- A reading begins with nothing reported and nothing marked. -/
theorem marked_query {b : Bounds} {t : Token} {ts : List Token} :
    (call b 0 t ⟨ts, [], false⟩).2.expectEnd.Marked :=
  (((marks b).1 0 t ⟨ts, [], false⟩).trans (State.marks_expectEnd _)).marked rfl

theorem countP_query_le (b : Bounds) (tokens : List Token) :
    (query b tokens).errors.countP SyntaxError.isNestingTooDeep ≤ 1 := by
  cases tokens with
  | nil => exact Nat.zero_le 1
  | cons t ts =>
    cases hbegins : beginsCall t ts with
    | false =>
      rw [query_of_not_beginsCall hbegins]
      exact Nat.zero_le 1
    | true =>
      rw [query_of_beginsCall hbegins]
      dsimp only
      rw [List.countP_reverse, marked_query]
      exact Bool.toNat_le _

/-- Where nothing is reported as nested too deep, nothing has been marked so. -/
theorem cut_of_no_limit {b : Bounds} {t : Token} {ts : List Token}
    (hbegins : beginsCall t ts = true)
    (hnone : ∀ e ∈ (query b (t :: ts)).errors, e.isNestingTooDeep = false) :
    (call b 0 t ⟨ts, [], false⟩).2.cut = false := by
  rw [query_of_beginsCall hbegins] at hnone
  dsimp only at hnone
  have hend : (call b 0 t ⟨ts, [], false⟩).2.expectEnd.cut = false :=
    marked_query.cut_eq_false fun e he => hnone e (List.mem_reverse.mpr he)
  exact (State.marks_expectEnd _).cut_eq_false hend

theorem query_eq_of_no_limit {b : Bounds} {limit : Nat} (hlimit : b.limit ≤ limit)
    {tokens : List Token} (hnone : ∀ e ∈ (query b tokens).errors, e.isNestingTooDeep = false) :
    query b tokens = query (b.withLimit limit) tokens := by
  cases tokens with
  | nil => rfl
  | cons t ts =>
    cases hbegins : beginsCall t ts with
    | false => rw [query_of_not_beginsCall hbegins, query_of_not_beginsCall hbegins]
    | true =>
      rw [query_of_beginsCall hbegins, query_of_beginsCall hbegins,
        (eq_of_not_cut hlimit).1 0 t _ (cut_of_no_limit hbegins hnone)]

end Parse

/-- **The nesting limit only takes away the calls nested too deep.** Whatever
the tokens are, and for any two limits of which the first is no greater, both
brought down to the ceiling:

* the tree under the first limit is the tree under the second with every call
  at that depth or below replaced by an invalid node in its place, and there
  is none if this is the call of the whole;
* so its calls are nested no deeper than the first limit;
* that calls are nested too deep is reported at most once;
* the other errors under the first limit are among those under the second, in
  the same order;
* and if nothing is nested too deep for the first limit, both give the same. -/
theorem Parsed.ofTokens_truncates {maxDepth maxDepth' : Nat}
    (h : min maxDepth depthCeiling ≤ min maxDepth' depthCeiling) (tokens : List Token)
    (stop : Position) :
    (Parsed.ofTokens maxDepth tokens stop).ast =
      ((Parsed.ofTokens maxDepth' tokens stop).ast.map
        (Node.truncate (min maxDepth depthCeiling))).filter (fun n => !n.isInvalid) ∧
    (∀ n ∈ (Parsed.ofTokens maxDepth tokens stop).ast,
      n.nesting ≤ min maxDepth depthCeiling) ∧
    (Parsed.ofTokens maxDepth tokens stop).errors.countP SyntaxError.isNestingTooDeep ≤ 1 ∧
    ((Parsed.ofTokens maxDepth tokens stop).errors.filter (fun e => !e.isNestingTooDeep)).Sublist
      ((Parsed.ofTokens maxDepth' tokens stop).errors.filter fun e => !e.isNestingTooDeep) ∧
    ((∀ e ∈ (Parsed.ofTokens maxDepth tokens stop).errors, e.isNestingTooDeep = false) →
      Parsed.ofTokens maxDepth tokens stop = Parsed.ofTokens maxDepth' tokens stop) := by
  have htruncates := Parse.query_truncates (b := ⟨min maxDepth depthCeiling, stop⟩) h tokens
  refine ⟨htruncates.1, ?_, Parse.countP_query_le _ tokens, htruncates.2,
    Parse.query_eq_of_no_limit h⟩
  intro n hn
  rw [show (Parsed.ofTokens maxDepth tokens stop).ast = _ from htruncates.1] at hn
  obtain ⟨hn, _⟩ := Option.mem_filter_iff.mp hn
  obtain ⟨n', _, rfl⟩ := Option.map_eq_some_iff.mp hn
  exact Node.nesting_truncate_le _ n'

open Parse in
/-- `not(not(a null`, which is never closed, under a limit of one level: the
inner call is taken out of the tree for two levels, and its mistakes are not
reported. -/
theorem Parsed.ofTokens_truncates_of_unclosed :
    let tokens : List Token :=
      [⟨.operator (.combine .not), "not", ⟨0, 1, 1⟩⟩, ⟨.openParen, "(", ⟨3, 1, 4⟩⟩,
        ⟨.operator (.combine .not), "not", ⟨4, 1, 5⟩⟩, ⟨.openParen, "(", ⟨7, 1, 8⟩⟩,
        ⟨.identifier "a", "a", ⟨8, 1, 9⟩⟩, ⟨.null, "null", ⟨10, 1, 11⟩⟩]
    Parsed.ofTokens 2 tokens ⟨14, 1, 15⟩ =
      { ast := some (.call (.combine .not)
          [.call (.combine .not) [.field "a" ⟨8, 1, 9⟩] ⟨4, 1, 5⟩] ⟨0, 1, 1⟩)
        errors := [.unexpectedToken .separator .null ⟨10, 1, 11⟩,
          .unexpectedEnd .closeParen ⟨14, 1, 15⟩, .unexpectedEnd .closeParen ⟨14, 1, 15⟩] } ∧
    (Parsed.ofTokens 1 tokens ⟨14, 1, 15⟩).ast =
      some (.call (.combine .not) [.invalid ⟨4, 1, 5⟩] ⟨0, 1, 1⟩) ∧
    ((Parsed.ofTokens 1 tokens ⟨14, 1, 15⟩).errors.filter fun e => !e.isNestingTooDeep).Sublist
      [.unexpectedToken .separator .null ⟨10, 1, 11⟩,
        .unexpectedEnd .closeParen ⟨14, 1, 15⟩, .unexpectedEnd .closeParen ⟨14, 1, 15⟩] := by
  intro tokens
  have htwo : Parsed.ofTokens 2 tokens ⟨14, 1, 15⟩ =
      { ast := some (.call (.combine .not)
          [.call (.combine .not) [.field "a" ⟨8, 1, 9⟩] ⟨4, 1, 5⟩] ⟨0, 1, 1⟩)
        errors := [.unexpectedToken .separator .null ⟨10, 1, 11⟩,
          .unexpectedEnd .closeParen ⟨14, 1, 15⟩, .unexpectedEnd .closeParen ⟨14, 1, 15⟩] } := by
    simp [tokens, Parsed.ofTokens, query, beginsCall, call_eq, arguments_eq, argument_eq,
      depthCeiling, State.announce, opensParen, closesParen, separator, State.expectSeparator,
      isSeparator, synchronize, State.unexpected, State.report, callNode, Node.isInvalid,
      State.expectEnd]
  obtain ⟨hast, _, _, herrors, _⟩ := Parsed.ofTokens_truncates
    (show min 1 depthCeiling ≤ min 2 depthCeiling by decide) tokens ⟨14, 1, 15⟩
  rw [htwo] at hast herrors
  exact ⟨htwo, hast, herrors⟩

end FilterQuery
