/-
FilterQuery.Proofs.Positions — every position is that of the text before it.

A position is counted up character by character (`Position.after`). Here
it is given by the text it stands behind instead: the number of bytes of
that text, of its line feeds, and of the characters on its last line
(`Position.past`). Both are the same (`Position.after_start`).

That every position is exact (`Outcome.ofText_positions`) is shown in two
parts. Each run of a text stands where the text before it ends, and so
does what the run reports, counted from the start of the run
(`Run.StandsAt`); from this follow the positions of the tokens and of the
lexical errors, and the order of the tokens. Behind the tokens, positions
are only copied (`Parsed.everywhere`, `Schema.bind_everywhere`).
-/
import Mathlib.Data.List.Induction
import FilterQuery.Proofs.Blanks
import FilterQuery.Proofs.Explanation
import FilterQuery.Proofs.Relocation

namespace FilterQuery

/-! ## 1. The position behind a text -/

namespace Position

/-- The position just past a text: its bytes, its line feeds, and the characters
behind the last of them. -/
def past (before : String) : Position where
  offset := before.utf8ByteSize
  line := 1 + before.toList.count '\n'
  column := 1 + (before.toList.reverse.takeWhile (· != '\n')).length

theorem past_append_singleton (cs : List Char) (c : Char) :
    past (String.ofList (cs ++ [c])) = (past (String.ofList cs)).advance c := by
  have hsize : (String.ofList (cs ++ [c])).utf8ByteSize =
      (String.ofList cs).utf8ByteSize + c.utf8Size := by
    rw [String.ofList_append, String.utf8ByteSize_append, ← String.singleton_eq_ofList,
      String.utf8ByteSize_singleton]
  unfold past advance
  rw [hsize, String.toList_ofList, String.toList_ofList, List.count_append, List.reverse_append,
    List.reverse_singleton, List.singleton_append]
  split
  · next hc =>
    subst hc
    rfl
  · next hc =>
    rw [List.takeWhile_cons_of_pos (by simpa using hc), List.count_singleton,
      if_neg (by simpa using hc), List.length_cons]
    rfl

/-- Counting up from the first character gives the position behind the text. -/
theorem after_start (cs : List Char) : start.after cs = past (String.ofList cs) := by
  induction cs using List.reverseRecOn with
  | nil => rfl
  | append_singleton cs c ih =>
    rw [after_append, ih, past_append_singleton]
    rfl

theorem offset_advance (p : Position) (c : Char) :
    (p.advance c).offset = p.offset + c.utf8Size := by
  unfold advance
  split <;> rfl

/-- An offset grows by the bytes of the text that is passed. -/
theorem offset_after (p : Position) (cs : List Char) :
    (p.after cs).offset = p.offset + (String.ofList cs).utf8ByteSize := by
  induction cs generalizing p with
  | nil => rfl
  | cons c cs ih =>
    rw [after_cons, ih, offset_advance, String.ofList_cons, String.utf8ByteSize_append,
      String.utf8ByteSize_singleton, Nat.add_assoc]

/-- Whether a position is that of some prefix of a text. -/
def IsIn (text : String) (p : Position) : Prop :=
  ∃ before behind : String, text = before ++ behind ∧ p = past before

theorem isIn_past (text : String) : (past text).IsIn text := ⟨text, "", by simp, rfl⟩

end Position

/-! ## 2. Runs -/

/-- Whether the text at the position of an error begins with what the error is
about. -/
def LexError.Shows (e : LexError) (behind : List Char) : Prop :=
  match e with
  | illegalCharacter c _ => [c] <+: behind
  | unterminatedString _ => ['"'] <+: behind ∨ ['\''] <+: behind
  | invalidEscape c _ => ['\\', c] <+: behind
  | numberOutOfRange lexeme _ => lexeme.toList <+: behind
  | inputTooLong _ _ => True

theorem LexError.Shows.append {e : LexError} {cs : List Char} (h : e.Shows cs) (ds : List Char) :
    e.Shows (cs ++ ds) := by
  have hlong : ∀ {xs : List Char}, xs <+: cs → xs <+: cs ++ ds :=
    fun hxs => hxs.trans (List.prefix_append cs ds)
  cases e with
  | illegalCharacter c p => exact hlong h
  | unterminatedString p => exact h.imp hlong hlong
  | invalidEscape c p => exact hlong h
  | numberOutOfRange lexeme p => exact hlong h
  | inputTooLong length limit => trivial

/-- Whether the token of a run stands at a position, and its errors stand behind
as much of the run as they should. -/
structure Run.StandsAt (p : Position) (r : Run) : Prop where
  token : ∀ t, r.token? = some t → t.position = p
  errors : ∀ e ∈ r.errors, ∃ inside tail, r.source = inside ++ tail ∧
    e.position = p.after inside ∧ e.Shows tail

theorem Run.toList_lexeme {r : Run} {t : Token} (h : r.token? = some t) :
    t.lexeme.toList = r.source := by
  cases r with
  | token u bad => rw [← Option.some.inj h, source]
  | _ => cases h

theorem Run.standsAt_token (t : Token) : (Run.token t []).StandsAt t.position where
  token := by
    intro u hu
    rw [← Option.some.inj hu]
  errors := by simp [Run.errors]

/-- A run that reports one error, at its own start. -/
theorem Run.standsAt_of_error {p : Position} {r : Run} {e : LexError} (htoken : r.token? = none)
    (herrors : r.errors = [e]) (hposition : e.position = p) (hshows : e.Shows r.source) :
    r.StandsAt p where
  token := by
    intro t ht
    rw [htoken] at ht
    cases ht
  errors := by
    intro e' he'
    rw [herrors, List.mem_singleton] at he'
    subst he'
    exact ⟨[], r.source, rfl, hposition, hshows⟩

namespace Quoted

theorem eq_escaped_of_badEscape {x : Piece} {c : Char} (h : x.badEscape? = some c) :
    x = .escaped c := by
  cases x with
  | plain d => cases h
  | escaped d =>
    simp only [Piece.badEscape?] at h
    split at h
    · cases h
    · rw [Option.some.inj h]

theorem source_append (ps qs : List Piece) : source (ps ++ qs) = source ps ++ source qs :=
  List.flatMap_append

theorem source_cons (x : Piece) (ps : List Piece) : source (x :: ps) = x.source ++ source ps :=
  List.flatMap_cons

/-- The positions go along with the pieces. -/
theorem foldl_collect (origin : Position) (ps : List Piece) :
    (ps.foldl collect ([], origin)).2 = origin.after (source ps) ∧
      ∀ y ∈ (ps.foldl collect ([], origin)).1, ∃ qs rs, ps = qs ++ .escaped y.1 :: rs ∧
        y.2 = origin.after (source qs) := by
  induction ps using List.reverseRecOn with
  | nil => exact ⟨rfl, fun y hy => absurd hy List.not_mem_nil⟩
  | append_singleton ps x ih =>
    obtain ⟨hposition, hfound⟩ := ih
    have hold : ∀ y ∈ (ps.foldl collect ([], origin)).1, ∃ qs rs,
        ps ++ [x] = qs ++ .escaped y.1 :: rs ∧ y.2 = origin.after (source qs) := by
      intro y hy
      obtain ⟨qs, rs, hps, hy⟩ := hfound y hy
      exact ⟨qs, rs ++ [x], by simp [hps], hy⟩
    rw [List.foldl_append, List.foldl_cons, List.foldl_nil]
    refine ⟨?_, ?_⟩
    · rw [source_append, source_cons, Position.after_append, Position.after_append, ← hposition]
      rfl
    · intro y hy
      unfold collect at hy
      dsimp only at hy
      split at hy
      · next c hbad =>
        rcases List.mem_cons.mp hy with rfl | hy
        · exact ⟨ps, [], by rw [eq_escaped_of_badEscape hbad], hposition⟩
        · exact hold y hy
      · exact hold y hy

/-- The backslash of a pair that is no escape stands behind the pieces before
the pair. -/
theorem mem_badEscapes {origin : Position} {ps : List Piece} {y : Char × Position}
    (h : y ∈ badEscapes origin ps) :
    ∃ qs rs, ps = qs ++ .escaped y.1 :: rs ∧ y.2 = origin.after (source qs) := by
  rw [badEscapes_eq_foldl, List.mem_reverse] at h
  exact (foldl_collect origin ps).2 y h

/-- Where the error of a bad escape is reported, in the literal as it is written. -/
theorem mem_badEscapes_source {p : Position} {q : Char} {ps : List Piece} {y : Char × Position}
    (h : y ∈ badEscapes (p.advance q) ps) (left : List Char) :
    ∃ inside tail, q :: source ps ++ left = inside ++ tail ∧
      (LexError.invalidEscape y.1 y.2).position = p.after inside ∧
      (LexError.invalidEscape y.1 y.2).Shows tail := by
  obtain ⟨qs, rs, rfl, hy⟩ := mem_badEscapes h
  refine ⟨q :: source qs, '\\' :: y.1 :: (source rs ++ left), ?_, hy, ?_⟩
  · rw [source_append, source_cons]
    simp [Piece.source]
  · exact ⟨source rs ++ left, rfl⟩

end Quoted

theorem readString_standsAt (p : Position) {q : Char} (hq : q = '"' ∨ q = '\'') (cs : List Char) :
    (readString p q cs).1.StandsAt p := by
  unfold readString
  split
  · next ps rest _ =>
    refine ⟨?_, ?_⟩
    · intro t ht
      rw [← Option.some.inj ht]
    · intro e he
      obtain ⟨y, hy, rfl⟩ := List.mem_map.mp he
      rw [Run.source, String.toList_ofList]
      exact Quoted.mem_badEscapes_source hy [q]
  · next ps left _ =>
    refine ⟨by rintro t ⟨⟩, ?_⟩
    intro e he
    rcases List.mem_append.mp he with he | he
    · obtain ⟨y, hy, rfl⟩ := List.mem_map.mp he
      exact Quoted.mem_badEscapes_source hy left
    · obtain rfl := List.mem_singleton.mp he
      refine ⟨[], q :: Quoted.source ps ++ left, rfl, rfl, ?_⟩
      rcases hq with rfl | rfl
      · exact .inl ⟨_, rfl⟩
      · exact .inr ⟨_, rfl⟩

theorem numeralRun_standsAt (p : Position) (n : Numeral) : (numeralRun p n).StandsAt p := by
  unfold numeralRun
  split
  · exact Run.standsAt_token ⟨_, _, p⟩
  · refine Run.standsAt_of_error rfl rfl rfl ?_
    simp only [LexError.Shows, Run.source, String.toList_ofList, List.prefix_refl]

/-- Every run stands where it is read. -/
theorem readRun_standsAt (p : Position) (c : Char) (cs : List Char) :
    (readRun p c cs).1.StandsAt p := by
  apply readRun_cases (P := fun r => r.1.StandsAt p) p c cs
  case blank => exact fun _ => ⟨by rintro t ⟨⟩, List.forall_mem_nil _⟩
  case mark => exact fun kind _ => Run.standsAt_token ⟨kind, String.singleton c, p⟩
  case quoted => exact fun hquote => readString_standsAt p hquote cs
  case numeral => exact fun n _ _ _ => numeralRun_standsAt p n
  case word => exact fun _ => Run.standsAt_token ⟨_, _, p⟩
  case illegal => exact fun _ _ _ => Run.standsAt_of_error rfl rfl rfl (List.prefix_refl [c])

/-! ## 3. Whole texts -/

/-- Every run of a text stands behind the text before it. -/
theorem standsAt_of_mem_runsFrom (p : Position) (text : List Char) :
    ∀ r ∈ runsFrom [] p text, ∃ before behind, text = before ++ r.source ++ behind ∧
      r.StandsAt (p.after before) := by
  induction p, text using runs_induction with
  | nil p =>
    rw [runsFrom_nil]
    exact List.forall_mem_nil _
  | run p c cs ih =>
    have hsource := readRun_source p c cs
    rw [runsFrom_cons]
    refine List.forall_mem_cons.mpr ⟨?_, ?_⟩
    · exact ⟨[], (readRun p c cs).2, by simp [hsource], readRun_standsAt p c cs⟩
    · intro r hr
      obtain ⟨before, behind, htext, hstands⟩ := ih r hr
      refine ⟨(readRun p c cs).1.source ++ before, behind, ?_, ?_⟩
      · rw [← hsource, htext]
        simp
      · rw [Position.after_append]
        exact hstands

/-- The tokens of a text come in order, and none begins before the one in front
of it has ended. -/
theorem pairwise_runsFrom (p : Position) (text : List Char) :
    ((runsFrom [] p text).filterMap Run.token?).Pairwise fun t u =>
      t.position.offset + t.lexeme.utf8ByteSize ≤ u.position.offset := by
  induction p, text using runs_induction with
  | nil p =>
    rw [runsFrom_nil]
    exact List.Pairwise.nil
  | run p c cs ih =>
    rw [runsFrom_cons, List.filterMap_cons]
    cases htoken : (readRun p c cs).1.token? with
    | none => exact ih
    | some t =>
      refine List.pairwise_cons.mpr ⟨?_, ih⟩
      intro u hu
      obtain ⟨r, hr, hu⟩ := List.mem_filterMap.mp hu
      obtain ⟨before, _, _, hstands⟩ := standsAt_of_mem_runsFrom _ _ r hr
      have hend := Run.toList_lexeme htoken
      rw [hstands.token u hu, (readRun_standsAt p c cs).token t htoken, Position.offset_after,
        Position.offset_after, ← hend, String.ofList_toList]
      exact Nat.le_add_right _ _

/-- Every token of a text stands where its lexeme does. -/
theorem Lexed.position_of_mem {text : String} {t : Token} (h : t ∈ (Lexed.ofText text).tokens) :
    ∃ before behind, text = before ++ t.lexeme ++ behind ∧ t.position = .past before := by
  obtain ⟨r, hr, ht⟩ := List.mem_filterMap.mp h
  obtain ⟨before, behind, htext, hstands⟩ := standsAt_of_mem_runsFrom .start text.toList r hr
  refine ⟨String.ofList before, String.ofList behind, ?_, ?_⟩
  · rw [← Run.toList_lexeme ht] at htext
    rw [← String.toList_inj, htext]
    simp
  · rw [hstands.token t ht, Position.after_start]

/-- Every lexical error stands in front of what it is about. -/
theorem Lexed.shows_of_mem {text : String} {e : LexError} (h : e ∈ (Lexed.ofText text).errors) :
    ∃ before behind, text = before ++ behind ∧ e.position = .past before ∧
      e.Shows behind.toList := by
  obtain ⟨r, hr, he⟩ := List.mem_flatMap.mp h
  obtain ⟨before, behind, htext, hstands⟩ := standsAt_of_mem_runsFrom .start text.toList r hr
  obtain ⟨inside, tail, hsource, hposition, hshows⟩ := hstands.errors e he
  refine ⟨String.ofList (before ++ inside), String.ofList (tail ++ behind), ?_, ?_, ?_⟩
  · rw [← String.toList_inj, htext, hsource]
    simp
  · rw [hposition, ← Position.after_append, Position.after_start]
  · rw [String.toList_ofList]
    exact hshows.append behind

theorem Lexed.stop_ofText (text : String) : (Lexed.ofText text).stop = .past text := by
  rw [Lexed.ofText, Position.after_start, String.ofList_toList]

/-- Whether a position is that of a token, or of the end of the text. -/
def Lexed.Holds (lexed : Lexed) (p : Position) : Prop :=
  p = lexed.stop ∨ ∃ t ∈ lexed.tokens, p = t.position

theorem Lexed.isIn_of_holds {text : String} {p : Position} (h : (Lexed.ofText text).Holds p) :
    p.IsIn text := by
  rcases h with rfl | ⟨t, ht, rfl⟩
  · rw [Lexed.stop_ofText]
    exact Position.isIn_past text
  · obtain ⟨before, behind, htext, hposition⟩ := Lexed.position_of_mem ht
    exact ⟨before, t.lexeme ++ behind, by rw [htext, String.append_assoc], hposition⟩

/-- What is read of a text and bound has the positions of its tokens and of its
end. -/
theorem Outcome.holds_of_within {limits : Limits} {text : String}
    (hlength : text.utf8ByteSize ≤ limits.maxInputLength) (schema : Schema) :
    (∀ n ∈ (Syntactic.ofText limits text).ast, n.Everywhere (Lexed.ofText text).Holds) ∧
    (∀ e ∈ (Syntactic.ofText limits text).syntaxErrors, (Lexed.ofText text).Holds e.position) ∧
    ∀ e ∈ (Outcome.ofText schema limits text).bindErrors, (Lexed.ofText text).Holds e.position := by
  have hread := Parsed.everywhere (Q := (Lexed.ofText text).Holds)
    (fun t ht => .inr ⟨t, ht, rfl⟩) (.inl rfl) limits.maxDepth
  rw [Syntactic.ofText_of_within hlength]
  refine ⟨hread.1, hread.2, ?_⟩
  cases hast : (Syntactic.ofText limits text).ast with
  | none =>
    rw [Outcome.ofText, Outcome.ofSyntactic, hast]
    exact List.forall_mem_nil _
  | some n =>
    rw [(Outcome.ofText_of_ast hast).1]
    rw [Syntactic.ofText_of_within hlength] at hast
    exact Schema.bind_everywhere (hread.1 n hast) schema

/-- **Every position is exact.** Whatever the schema, the limits and the text are:

* each token stands behind the text in front of its lexeme, and its lexeme is
  the text that begins there;
* the tokens come in order, and none begins before the one in front of it ends;
* the end is the position behind the whole text, unless the text is too long;
* each lexical error stands behind some prefix of the text, in front of what
  the error is about;
* every node of the tree, every mistake in its form and every mistake in its
  meaning stands where a token or the end of the text stands, and so behind
  some prefix of the text. -/
theorem Outcome.ofText_positions (schema : Schema) (limits : Limits) (text : String) :
    (∀ t ∈ (Lexed.ofBoundedText limits.maxInputLength text).tokens,
      ∃ before behind, text = before ++ t.lexeme ++ behind ∧ t.position = .past before) ∧
    ((Lexed.ofBoundedText limits.maxInputLength text).tokens.Pairwise fun t u =>
      t.position.offset + t.lexeme.utf8ByteSize ≤ u.position.offset) ∧
    (text.utf8ByteSize ≤ limits.maxInputLength →
      (Lexed.ofBoundedText limits.maxInputLength text).stop = .past text) ∧
    (∀ e ∈ (Outcome.ofText schema limits text).lexErrors,
      ∃ before behind, text = before ++ behind ∧ e.position = .past before ∧
        e.Shows behind.toList) ∧
    (∀ n ∈ (Syntactic.ofText limits text).ast, n.Everywhere fun p =>
      p.IsIn text ∧ (Lexed.ofBoundedText limits.maxInputLength text).Holds p) ∧
    (∀ e ∈ (Outcome.ofText schema limits text).syntaxErrors, e.position.IsIn text ∧
      (Lexed.ofBoundedText limits.maxInputLength text).Holds e.position) ∧
    (∀ e ∈ (Outcome.ofText schema limits text).bindErrors, e.position.IsIn text ∧
      (Lexed.ofBoundedText limits.maxInputLength text).Holds e.position) := by
  by_cases hlength : text.utf8ByteSize ≤ limits.maxInputLength
  · obtain ⟨hnodes, hform, hbind⟩ := Outcome.holds_of_within hlength schema
    have hboth : ∀ {p}, (Lexed.ofText text).Holds p →
        p.IsIn text ∧ (Lexed.ofText text).Holds p := fun h => ⟨Lexed.isIn_of_holds h, h⟩
    rw [Lexed.ofBoundedText_of_within hlength]
    refine ⟨fun t => Lexed.position_of_mem, pairwise_runsFrom .start text.toList,
      fun _ => Lexed.stop_ofText text, ?_, fun n hn => (hnodes n hn).mono fun _ => hboth,
      fun e he => hboth (hform e he), fun e he => hboth (hbind e he)⟩
    intro e he
    rw [Outcome.ofText, Outcome.ofSyntactic, Syntactic.ofText_of_within hlength] at he
    exact Lexed.shows_of_mem he
  · have hlong := Nat.not_le.mp hlength
    rw [Lexed.ofBoundedText, if_pos hlong, Outcome.ofText, Syntactic.ofText_of_too_long hlong]
    refine ⟨List.forall_mem_nil _, List.Pairwise.nil, fun h => absurd h hlength, ?_,
      by rintro n ⟨⟩, List.forall_mem_nil _, List.forall_mem_nil _⟩
    intro e he
    obtain rfl := List.mem_singleton.mp he
    exact ⟨"", text, by simp, rfl, trivial⟩

open Parse in
/-- An accented letter on a line of its own, and behind it `not(a`, which is
never closed: the letter is two bytes long, and the field, where no field may
stand, is the fifth character of the second line. -/
theorem Outcome.ofText_positions_of_accent :
    let text := "é\nnot(a"
    let schema : Schema := ⟨[], .nil⟩
    let field : Token := ⟨.identifier "a", "a", ⟨7, 2, 5⟩⟩
    let illegal : LexError := .illegalCharacter 'é' ⟨0, 1, 1⟩
    let unclosed : SyntaxError := .unexpectedEnd .closeParen ⟨8, 2, 6⟩
    let misplaced : BindError := .expectedPredicate (.field "a") ⟨7, 2, 5⟩
    (field ∈ (Lexed.ofBoundedText 65536 text).tokens ∧
      ∃ before behind, text = before ++ "a" ++ behind ∧ field.position = .past before) ∧
    (text.utf8ByteSize ≤ 65536 ∧ (Lexed.ofBoundedText 65536 text).stop = .past text) ∧
    (illegal ∈ (Outcome.ofText schema {} text).lexErrors ∧
      ∃ before behind, text = before ++ behind ∧ illegal.position = .past before ∧
        ['é'] <+: behind.toList) ∧
    (∃ n ∈ (Syntactic.ofText {} text).ast, n.Everywhere fun p => p.IsIn text ∧
      (Lexed.ofBoundedText 65536 text).Holds p) ∧
    (unclosed ∈ (Outcome.ofText schema {} text).syntaxErrors ∧ unclosed.position.IsIn text) ∧
    (misplaced ∈ (Outcome.ofText schema {} text).bindErrors ∧ misplaced.position.IsIn text) := by
  intro text schema field illegal unclosed misplaced
  have hlexed : (Lexed.ofText text).tokens =
        [⟨.operator (.combine .not), "not", ⟨3, 2, 1⟩⟩, ⟨.openParen, "(", ⟨6, 2, 4⟩⟩, field] ∧
      (Lexed.ofText text).errors = [illegal] ∧ (Lexed.ofText text).stop = ⟨8, 2, 6⟩ := by
    decide +kernel
  have hlength : text.utf8ByteSize ≤ 65536 := by decide +kernel
  have hread : Syntactic.ofText {} text =
      { ast := some (.call (.combine .not) [.field "a" ⟨7, 2, 5⟩] ⟨3, 2, 1⟩)
        lexErrors := [illegal]
        syntaxErrors := [unclosed] } := by
    rw [Syntactic.ofText_of_within hlength, hlexed.1, hlexed.2.1, hlexed.2.2]
    simp [field, unclosed, Parsed.ofTokens, query, beginsCall, call_eq, arguments_eq, argument_eq,
      depthCeiling, State.announce, opensParen, closesParen, separator, State.expectSeparator,
      synchronize, State.unexpected, State.report, callNode, Node.isInvalid, State.expectEnd]
  have hbind : (Outcome.ofText schema {} text).bindErrors = [misplaced] := by
    rw [Outcome.ofText, hread]
    rfl
  obtain ⟨ofTokens, _, ofStop, ofLex, ofNodes, ofSyntax, ofBind⟩ :=
    Outcome.ofText_positions schema {} text
  have hfield : field ∈ (Lexed.ofBoundedText 65536 text).tokens := by
    rw [Lexed.ofBoundedText_of_within hlength, hlexed.1]
    simp
  have hillegal : illegal ∈ (Outcome.ofText schema {} text).lexErrors := by
    rw [Outcome.ofText, hread]
    exact List.mem_singleton_self illegal
  have hunclosed : unclosed ∈ (Outcome.ofText schema {} text).syntaxErrors := by
    rw [Outcome.ofText, hread]
    exact List.mem_singleton_self unclosed
  have hmisplaced : misplaced ∈ (Outcome.ofText schema {} text).bindErrors := by
    rw [hbind]
    exact List.mem_singleton_self misplaced
  exact ⟨⟨hfield, ofTokens field hfield⟩, ⟨hlength, ofStop hlength⟩,
    ⟨hillegal, ofLex illegal hillegal⟩, ⟨_, by rw [hread]; rfl, ofNodes _ (by rw [hread]; rfl)⟩,
    ⟨hunclosed, (ofSyntax unclosed hunclosed).1⟩, ⟨hmisplaced, (ofBind misplaced hmisplaced).1⟩⟩

end FilterQuery
