/-
FilterQuery.Proofs.Layout — the layout of a query does not matter.

A query that is read without a lexical error may be written out again in
any way: its lexemes in order, with blanks of any kind around them, as
long as there is one between any two (`LaidOut`). The tokens are the same
up to their positions, because each lexeme by itself is its token
(`readFrom_lexeme`) and blanks cut a text without loss (`readFrom_append`).
What follows the tokens never looks at a position (`Parsed.ofTokens_relocate`,
`Outcome.ofSyntactic_relocate`), so the predicate is the same, and so are
the mistakes that are reported (`Outcome.ofText_layout`).
-/
import FilterQuery.Proofs.Explanation
import FilterQuery.Proofs.Lexicon
import FilterQuery.Proofs.Relocation

namespace FilterQuery

/-! ## 1. Lexemes laid out -/

/-- Whether a text is some lexemes in order, with any number of blanks in front of
the first and behind the last, and at least one between any two. -/
inductive LaidOut : List String → List Char → Prop
  | blank {gap : List Char} (hgap : gap.all isBlank = true) : LaidOut [] gap
  | last {lead trail : List Char} {w : String} (hlead : lead.all isBlank = true)
      (htrail : trail.all isBlank = true) : LaidOut [w] (lead ++ (w.toList ++ trail))
  | more {lead rest : List Char} {c : Char} {w v : String} {ws : List String}
      (hlead : lead.all isBlank = true) (hc : isBlank c = true)
      (hrest : LaidOut (v :: ws) rest) : LaidOut (w :: v :: ws) (lead ++ (w.toList ++ c :: rest))

/-- Where there is nothing but blanks, there is nothing. -/
theorem readFrom_of_blanks {gap : List Char} (hgap : gap.all isBlank = true) (p : Position) :
    readFrom p gap = ([], []) := by
  have hread := readFrom_blanks hgap p []
  rwa [List.append_nil, readFrom_nil] at hread

/-- Put a position aside. -/
def Position.forget (_ : Position) : Position := .start

/-- A lexeme in front of a blank is read as its token, and then what is behind the
blank. -/
theorem readFrom_lexeme_append {t : Token}
    (ht : ∀ q, readFrom q t.lexeme.toList = ([{ t with position := q }], [])) {c : Char}
    (hc : isBlank c = true) (rest : List Char) (p : Position) :
    ∃ q, readFrom p (t.lexeme.toList ++ c :: rest) =
      ({ t with position := p } :: (readFrom q rest).1, (readFrom q rest).2) := by
  have hread := readFrom_append hc rest p t.lexeme.toList (by simp [ht])
  rw [ht] at hread
  exact ⟨_, hread⟩

/-- Lexemes that are tokens by themselves are these tokens when they are laid out. -/
theorem readFrom_of_laidOut {ts : List Token}
    (hts : ∀ t ∈ ts, ∀ q, readFrom q t.lexeme.toList = ([{ t with position := q }], []))
    {text : List Char} (h : LaidOut (ts.map Token.lexeme) text) (p : Position) :
    (readFrom p text).1.map (Token.relocate .forget) = ts.map (Token.relocate .forget) ∧
      (readFrom p text).2 = [] := by
  generalize hws : ts.map Token.lexeme = ws at h
  induction h generalizing ts p with
  | blank hgap =>
    obtain rfl := List.map_eq_nil_iff.mp hws
    rw [readFrom_of_blanks hgap]
    exact ⟨rfl, rfl⟩
  | @last lead trail w hlead htrail =>
    obtain ⟨t, rfl, rfl⟩ := List.map_eq_singleton_iff.mp hws
    have ht := hts t (List.mem_singleton_self t)
    rw [readFrom_blanks hlead]
    cases trail with
    | nil =>
      rw [List.append_nil, ht]
      exact ⟨rfl, rfl⟩
    | cons c trail =>
      rw [List.all_cons, Bool.and_eq_true] at htrail
      obtain ⟨hc, htrail⟩ := htrail
      obtain ⟨q, hread⟩ := readFrom_lexeme_append ht hc trail (p.after lead)
      rw [hread, readFrom_of_blanks htrail]
      exact ⟨rfl, rfl⟩
  | @more lead rest c w v ws hlead hc hrest ih =>
    obtain ⟨t, ts, rfl, rfl, hrest⟩ := List.map_eq_cons_iff.mp hws
    obtain ⟨ht, hts⟩ := List.forall_mem_cons.mp hts
    rw [readFrom_blanks hlead]
    obtain ⟨q, hread⟩ := readFrom_lexeme_append ht hc rest (p.after lead)
    obtain ⟨htokens, herrors⟩ := ih hts q hrest
    rw [hread, List.map_cons, List.map_cons, htokens]
    exact ⟨rfl, herrors⟩

/-- A text laid out anew has the same tokens, and no errors either. -/
theorem Lexed.ofText_of_laidOut {text text' : String} (hlex : (Lexed.ofText text).errors = [])
    (hlaid : LaidOut ((Lexed.ofText text).tokens.map Token.lexeme) text'.toList) :
    (Lexed.ofText text').tokens.map (Token.relocate .forget) =
        (Lexed.ofText text).tokens.map (Token.relocate .forget) ∧
      (Lexed.ofText text').errors = [] :=
  readFrom_of_laidOut (fun _ ht => readFrom_lexeme hlex ht) hlaid .start

/-! ## 2. The same query -/

/-- A text that was read without an error is not too long. -/
theorem Lexed.within_of_errors {limit : Nat} {text : String}
    (h : (Lexed.ofBoundedText limit text).errors = []) : text.utf8ByteSize ≤ limit := by
  unfold Lexed.ofBoundedText at h
  split at h
  · cases h
  · next hlength => exact Nat.not_lt.mp hlength

/-- **The layout of a query does not matter.** Take a text that is read without a
lexical error, and another one, not too long either, that is its lexemes in order
with blanks between them. Then the other one is read without a lexical error, its
tokens have the same kinds and lexemes, and whatever the schema and the limits
are, it has the same predicate, and the same mistakes in form and in meaning are
reported, up to their positions. -/
theorem Outcome.ofText_layout (schema : Schema) (limits : Limits) {text text' : String}
    (hlex : (Lexed.ofBoundedText limits.maxInputLength text).errors = [])
    (hlaid : LaidOut
      ((Lexed.ofBoundedText limits.maxInputLength text).tokens.map Token.lexeme) text'.toList)
    (hlength : text'.utf8ByteSize ≤ limits.maxInputLength) :
    (Lexed.ofBoundedText limits.maxInputLength text').errors = [] ∧
    (Lexed.ofBoundedText limits.maxInputLength text').tokens.map (Token.relocate .forget) =
      (Lexed.ofBoundedText limits.maxInputLength text).tokens.map (Token.relocate .forget) ∧
    (Outcome.ofText schema limits text').predicate =
      (Outcome.ofText schema limits text).predicate ∧
    (Outcome.ofText schema limits text').syntaxErrors.map (SyntaxError.relocate .forget) =
      (Outcome.ofText schema limits text).syntaxErrors.map (SyntaxError.relocate .forget) ∧
    (Outcome.ofText schema limits text').bindErrors.map (BindError.relocate .forget) =
      (Outcome.ofText schema limits text).bindErrors.map (BindError.relocate .forget) := by
  have hwithin := Lexed.within_of_errors hlex
  rw [Lexed.ofBoundedText_of_within hwithin] at hlex hlaid ⊢
  rw [Lexed.ofBoundedText_of_within hlength]
  obtain ⟨htokens, hlex'⟩ := Lexed.ofText_of_laidOut hlex hlaid
  have hread : (Syntactic.ofText limits text').relocate .forget =
      (Syntactic.ofText limits text).relocate .forget := by
    have hparsed := Parsed.ofTokens_relocate .forget limits.maxDepth (Lexed.ofText text).tokens
      (Lexed.ofText text).stop
    have hparsed' := Parsed.ofTokens_relocate .forget limits.maxDepth (Lexed.ofText text').tokens
      (Lexed.ofText text').stop
    rw [htokens] at hparsed'
    have hsame : (Parsed.ofTokens limits.maxDepth (Lexed.ofText text').tokens
        (Lexed.ofText text').stop).relocate .forget =
        (Parsed.ofTokens limits.maxDepth (Lexed.ofText text).tokens
          (Lexed.ofText text).stop).relocate .forget := hparsed'.symm.trans hparsed
    simp only [Parsed.relocate, Parsed.mk.injEq] at hsame
    rw [Syntactic.ofText_of_within hwithin, Syntactic.ofText_of_within hlength]
    simp only [Syntactic.relocate, hlex, hlex', hsame.1, hsame.2]
  have houtcome : (Outcome.ofText schema limits text').relocate .forget =
      (Outcome.ofText schema limits text).relocate .forget := by
    unfold Outcome.ofText
    rw [← Outcome.ofSyntactic_relocate, ← Outcome.ofSyntactic_relocate, hread]
  simp only [Outcome.relocate, Outcome.mk.injEq] at houtcome
  exact ⟨hlex', htokens, houtcome.1, houtcome.2.2⟩

open Grammar in
/-- `eq(a,-1.5)`, and the same with an em space in front, line feeds, a tab and a
no-break space: both compare the field `a` with the same number, and make the same
mistake if there is no such field. -/
theorem Outcome.ofText_layout_of_spaces :
    let text := "eq(a,-1.5)"
    let text' := "\u2003eq (\n\na\t, -1.5\u00a0) "
    let schema := Schema.empty.insert "a" ⟨.number, false⟩
    let p := Predicate.comparison "a" .eq [.decimal ⟨-15, 1, by decide, by decide⟩]
    (Lexed.ofBoundedText 65536 text).errors = [] ∧
    LaidOut ((Lexed.ofBoundedText 65536 text).tokens.map Token.lexeme) text'.toList ∧
    text'.utf8ByteSize ≤ 65536 ∧
    (Lexed.ofBoundedText 65536 text').errors = [] ∧
    (Lexed.ofBoundedText 65536 text').tokens.map (Token.relocate .forget) =
      (Lexed.ofBoundedText 65536 text).tokens.map (Token.relocate .forget) ∧
    (Outcome.ofText schema {} text).predicate = some p ∧
    (Outcome.ofText schema {} text').predicate = (Outcome.ofText schema {} text).predicate ∧
    (Outcome.ofText schema {} text').syntaxErrors.map (SyntaxError.relocate .forget) =
      (Outcome.ofText schema {} text).syntaxErrors.map (SyntaxError.relocate .forget) ∧
    (Outcome.ofText schema {} text').bindErrors.map (BindError.relocate .forget) =
      (Outcome.ofText schema {} text).bindErrors.map (BindError.relocate .forget) ∧
    (Outcome.ofText .empty {} text).bindErrors = [.unknownField "a" ⟨3, 1, 4⟩] ∧
    (Outcome.ofText .empty {} text').bindErrors.map (BindError.relocate .forget) =
      (Outcome.ofText .empty {} text).bindErrors.map (BindError.relocate .forget) := by
  intro text text' schema p
  have hlex : (Lexed.ofBoundedText 65536 text).errors = [] := by decide +kernel
  have hlexemes : (Lexed.ofBoundedText 65536 text).tokens.map Token.lexeme =
      ["eq", "(", "a", ",", "-1.5", ")"] := by decide +kernel
  have htext' : text'.toList = ['\u2003'] ++ ("eq".toList ++ ' ' :: ([] ++ ("(".toList ++ '\n' ::
      (['\n'] ++ ("a".toList ++ '\t' :: ([] ++ (",".toList ++ ' ' :: ([] ++ ("-1.5".toList ++
        '\u00a0' :: ([] ++ (")".toList ++ [' ']))))))))))) := by decide +kernel
  have hlaid : LaidOut ((Lexed.ofBoundedText 65536 text).tokens.map Token.lexeme) text'.toList := by
    rw [hlexemes, htext']
    exact .more rfl rfl (.more rfl rfl (.more rfl rfl (.more rfl rfl (.more rfl rfl
      (.last rfl rfl)))))
  have hlength : text'.utf8ByteSize ≤ 65536 := by decide +kernel
  let token (kind : Token.Kind) (lexeme : String) (i : Nat) : Token := ⟨kind, lexeme, ⟨i, 1, i + 1⟩⟩
  let head := token (.operator (.compare .eq)) "eq" 0
  let field := token (.identifier "a") "a" 3
  let value := token (.number ⟨-15, 1, by decide, by decide⟩) "-1.5" 5
  have htokens : (Lexed.ofText text).tokens = [head, token .openParen "(" 2, field,
      token .comma "," 4, value, token .closeParen ")" 9] := by decide +kernel
  have hsentence : Expression (Lexed.ofText text).tokens
      (.call head [.word field, .word value]) := by
    rw [htokens]
    exact .comparison rfl rfl rfl rfl rfl rfl
  have hpredicate : (Outcome.ofText schema {} text).predicate = some p := by
    rw [Outcome.ofText_of_sentence (p := p) (by decide) (by decide +kernel) hsentence (by decide)
      rfl rfl]
  have hunknown : (Outcome.ofText .empty {} text).bindErrors = [.unknownField "a" ⟨3, 1, 4⟩] := by
    rw [Outcome.ofText, Syntactic.ofText_of_sentence (by decide) (by decide +kernel) hsentence
      (by decide) rfl]
    rfl
  obtain ⟨hlex', htokens', hpredicates, hsyntax, hbind⟩ :=
    Outcome.ofText_layout schema {} hlex hlaid hlength
  obtain ⟨_, _, _, _, hempty⟩ := Outcome.ofText_layout .empty {} hlex hlaid hlength
  exact ⟨hlex, hlaid, hlength, hlex', htokens', hpredicate, hpredicates, hsyntax, hbind, hunknown,
    hempty⟩

end FilterQuery
