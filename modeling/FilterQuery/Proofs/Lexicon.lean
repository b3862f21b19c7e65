/-
FilterQuery.Proofs.Lexicon — the words of the language, apart from any reader.

A text is a sequence of stretches, one after the other with nothing in
between. Each of them is one of five:

* blanks, as many as stand together;
* a token: a mark, a name as far as it goes, the longest numeral that
  begins there, or a literal with its closing quote;
* a character with which nothing begins, which is an error;
* the longest numeral, if its value is out of range, which is an error;
* an opening quote that is never closed, with all that follows it, which
  is an error.

The relation `Lexes` says just this, and which tokens and errors there are
then. It knows nothing of how a text is read: a numeral is the longest one
because no longer one begins there, and a character is illegal because
nothing does. Still no text has more than one such sequence, and reading
finds it (`Lexed.ofText_lexes`).

## Literals

The body of a literal is read pair by pair: a backslash takes the character
behind it along, whatever it is, so a quote behind a backslash closes
nothing (`Body`). A pair that is no escape is the one error that a stretch
can hold besides its own.

## Lexemes

A token is made of its lexeme and of nothing else. So the lexeme by itself,
wherever it stands, is that token again (`readFrom_lexeme`), if its text was
read without an error.
-/
import FilterQuery.Proofs.Blanks

namespace FilterQuery

/-! ## 1. Numerals and literals -/

/-- Whether a numeral is the longest one that a text begins with. -/
structure Numeral.IsLongest (n : Numeral) (text : List Char) : Prop where
  isWritten : n.IsWritten
  begins : n.source <+: text
  longest : ∀ m : Numeral, m.IsWritten → m.source <+: text → m.source.length ≤ n.source.length

/-- What can stand between two quotes `q` from a position on: the string it denotes, and
the errors in it. A backslash is read together with the character behind it; where the
two are no escape, they denote that character, and the backslash is reported. -/
inductive Lexicon.Body (q : Char) : Position → List Char → List Char → List LexError → Prop
  | nil {p : Position} : Body q p [] [] []
  | plain {p : Position} {c : Char} {cs value : List Char} {es : List LexError} (hquote : c ≠ q)
      (hbackslash : c ≠ '\\') (behind : Body q (p.advance c) cs value es) :
      Body q p (c :: cs) (c :: value) es
  | escape {p : Position} {c v : Char} {cs value : List Char} {es : List LexError}
      (known : Quoted.escapeValue? c = some v) (behind : Body q (p.after ['\\', c]) cs value es) :
      Body q p ('\\' :: c :: cs) (v :: value) es
  | wrong {p : Position} {c : Char} {cs value : List Char} {es : List LexError}
      (unknown : Quoted.escapeValue? c = none)
      (behind : Body q (p.after ['\\', c]) cs value es) :
      Body q p ('\\' :: c :: cs) (c :: value) (.invalidEscape c p :: es)

/-! ## 2. The lexicon -/

namespace Lexicon

/-- Whether a text that begins at a position and has `rest` behind it is a token: its
kind, and the errors in it. -/
inductive Word : Position → List Char → List Char → Token.Kind → List LexError → Prop
  | mark {p : Position} {c : Char} {rest : List Char} {kind : Token.Kind}
      (mark : markKind? c = some kind) : Word p [c] rest kind []
  | name {p : Position} {c : Char} {cs rest : List Char} (starts : isNameStart c = true)
      (goes : cs.all isNameRest = true) (stops : ∀ d ∈ rest.head?, isNameRest d = false) :
      Word p (c :: cs) rest (.ofWord (String.ofList (c :: cs))) []
  | numeral {p : Position} {n : Numeral} {rest : List Char} {d : Decimal}
      (longest : n.IsLongest (n.source ++ rest)) (inRange : Decimal.ofNumeral? n = some d) :
      Word p n.source rest (.number d) []
  | literal {p : Position} {q : Char} {cs value rest : List Char} {es : List LexError}
      (quote : q = '"' ∨ q = '\'') (body : Body q (p.advance q) cs value es) :
      Word p (q :: cs ++ [q]) rest (.string (String.ofList value)) es

/-- Whether nothing begins with a character that has `rest` behind it. -/
structure BeginsNothing (c : Char) (rest : List Char) : Prop where
  bare : IsBare c
  noName : isNameStart c = false
  noNumeral : ∀ n : Numeral, n.IsWritten → ¬ n.source <+: c :: rest

/-- Whether a text that begins at a position has the given tokens and errors. Each rule
takes one stretch off the front of the text. -/
inductive Lexes : Position → List Char → List Token → List LexError → Prop
  | done {p : Position} : Lexes p [] [] []
  | blanks {p : Position} {gap rest : List Char} {ts : List Token} {es : List LexError}
      (some : gap ≠ []) (all : gap.all isBlank = true)
      (stops : ∀ c ∈ rest.head?, isBlank c = false) (behind : Lexes (p.after gap) rest ts es) :
      Lexes p (gap ++ rest) ts es
  | token {p : Position} {lexeme rest : List Char} {kind : Token.Kind} {ts : List Token}
      {inside es : List LexError} (word : Word p lexeme rest kind inside)
      (behind : Lexes (p.after lexeme) rest ts es) :
      Lexes p (lexeme ++ rest) (⟨kind, String.ofList lexeme, p⟩ :: ts) (inside ++ es)
  | illegal {p : Position} {c : Char} {rest : List Char} {ts : List Token} {es : List LexError}
      (nothing : BeginsNothing c rest) (behind : Lexes (p.advance c) rest ts es) :
      Lexes p (c :: rest) ts (.illegalCharacter c p :: es)
  | outOfRange {p : Position} {n : Numeral} {rest : List Char} {ts : List Token}
      {es : List LexError} (longest : n.IsLongest (n.source ++ rest))
      (outOfRange : Decimal.ofNumeral? n = none) (behind : Lexes (p.after n.source) rest ts es) :
      Lexes p (n.source ++ rest) ts (.numberOutOfRange (String.ofList n.source) p :: es)
  | unclosed {p : Position} {q : Char} {cs left value : List Char} {inside : List LexError}
      (quote : q = '"' ∨ q = '\'') (body : Body q (p.advance q) cs value inside)
      (ends : left = [] ∨ left = ['\\']) :
      Lexes p (q :: cs ++ left) [] (inside ++ [.unterminatedString p])

end Lexicon

/-! ## 3. Numerals are read as far as they go -/

namespace Numeral

theorem length_takeWhile_append {ds : List Char} (hds : ∀ c ∈ ds, c.isDigit = true)
    (x : List Char) : ds.length ≤ ((ds ++ x).takeWhile Char.isDigit).length := by
  rw [List.takeWhile_append_of_pos hds, List.length_append]
  exact Nat.le_add_right _ _

/-- Behind digits, a fraction is read at least as far as one is written. -/
theorem scanUnsigned_of_written {n : Numeral} (hn : n.IsWritten) (x : List Char) :
    ∃ m rest, scanUnsigned n.negative
        (n.whole ++ ((if n.fraction.isEmpty then [] else '.' :: n.fraction) ++ x)) =
          some (m, rest) ∧ n.source.length ≤ m.source.length := by
  have hwhole := length_takeWhile_append hn.isDigit_whole
    ((if n.fraction.isEmpty then [] else '.' :: n.fraction) ++ x)
  have hpositive := List.length_pos_iff.mpr hn.whole_ne_nil
  unfold scanUnsigned
  dsimp only
  rw [if_neg (by rw [List.isEmpty_iff_length_eq_zero]; omega)]
  refine ⟨_, _, rfl, ?_⟩
  cases hfraction : n.fraction with
  | nil =>
    simp only [hfraction, source, List.isEmpty_nil, if_true, List.length_append, List.length_nil,
      List.nil_append] at hwhole ⊢
    omega
  | cons d ds =>
    have hstop : ∀ c ∈ ('.' :: (d :: ds ++ x)).head?, c.isDigit = false := by
      rintro c ⟨⟩
      rfl
    obtain ⟨htake, hdrop⟩ := takeWhile_append_stop hn.isDigit_whole hstop
    have hmore := length_takeWhile_append (hfraction ▸ hn.isDigit_fraction) x
    have hsome : ((d :: ds ++ x).takeWhile Char.isDigit).isEmpty = false := by
      rw [← Bool.not_eq_true, List.isEmpty_iff_length_eq_zero]
      simp only [List.length_cons] at hmore
      omega
    simp only [List.isEmpty_cons, Bool.false_eq_true, if_false]
    simp only [List.cons_append] at htake hdrop hsome hmore ⊢
    simp only [htake, hdrop, scanFraction, hsome, hfraction, source, List.isEmpty_cons,
      Bool.false_eq_true, if_false, List.length_append, List.length_cons] at hmore ⊢
    omega

/-- Where a numeral is written, one is read that is no shorter. -/
theorem scan_of_written {n : Numeral} (hn : n.IsWritten) (x : List Char) :
    ∃ m rest, scan (n.source ++ x) = some (m, rest) ∧ n.source.length ≤ m.source.length := by
  rw [scan_of_isWritten hn]
  exact scanUnsigned_of_written hn x

/-- The numeral that is read is the longest one. -/
theorem isLongest_of_scan {cs rest : List Char} {n : Numeral} (h : scan cs = some (n, rest)) :
    n.IsLongest cs where
  isWritten := isWritten_of_scan h
  begins := ⟨rest, scan_source h⟩
  longest := by
    rintro m hm ⟨x, rfl⟩
    obtain ⟨k, rest', hscan, hle⟩ := scan_of_written hm x
    rw [hscan] at h
    obtain ⟨rfl, rfl⟩ : k = n ∧ rest' = rest := by simpa using h
    exact hle

/-- A numeral is known by its text. -/
theorem eq_of_source_eq {m n : Numeral} (hm : m.IsWritten) (hn : n.IsWritten)
    (h : m.source = n.source) : m = n := by
  have hends : EndsBefore [] := by rintro c ⟨⟩
  have hscan := scan_source_append hm hends
  rw [h, scan_source_append hn hends] at hscan
  exact (Prod.mk.inj (Option.some.inj hscan)).1.symm

/-- The longest numeral is the one that is read. -/
theorem IsLongest.scan {n : Numeral} {rest : List Char} (h : n.IsLongest (n.source ++ rest)) :
    Numeral.scan (n.source ++ rest) = some (n, rest) := by
  obtain ⟨m, rest', hscan, hle⟩ := scan_of_written h.isWritten rest
  have hm := isLongest_of_scan hscan
  have hlength := Nat.le_antisymm (h.longest m hm.isWritten hm.begins) hle
  obtain ⟨hsource, rfl⟩ := List.append_inj (Numeral.scan_source hscan) hlength
  rw [hscan, eq_of_source_eq hm.isWritten h.isWritten hsource]

/-- Where no numeral begins, none is read. -/
theorem scan_eq_none_iff {cs : List Char} :
    Numeral.scan cs = none ↔ ∀ n : Numeral, n.IsWritten → ¬ n.source <+: cs := by
  constructor
  · rintro h n hn ⟨x, rfl⟩
    obtain ⟨m, rest, hscan, _⟩ := scan_of_written hn x
    rw [h] at hscan
    cases hscan
  · intro h
    cases hscan : Numeral.scan cs with
    | none => rfl
    | some read =>
      obtain ⟨n, rest⟩ := read
      have hlongest := isLongest_of_scan hscan
      exact absurd hlongest.begins (h n hlongest.isWritten)

/-- The longest numeral begins with a character that is neither a blank nor a mark nor a
quote. -/
theorem IsLongest.cons {n : Numeral} {text : List Char} (h : n.IsLongest text) :
    ∃ c cs, n.source = c :: cs ∧ IsBare c := by
  obtain ⟨c, cs, hsource, hc⟩ := source_cases h.isWritten
  refine ⟨c, cs, hsource, ?_⟩
  rcases hc with rfl | hc
  · exact isBare_of_range (by decide) (by decide)
  · have hrange : 48 ≤ c.toNat ∧ c.toNat ≤ 57 := Char.isDigit_iff_toNat.mp hc
    exact isBare_of_range (by omega) (by omega)

end Numeral

/-! ## 4. Literals are read to their closing quote -/

namespace Quoted

/-- Whether a piece may stand between two quotes `q`. -/
def Piece.Fits (q : Char) : Piece → Prop
  | plain c => c ≠ q ∧ c ≠ '\\'
  | escaped _ => True

/-- Pieces that fit are read one by one. -/
theorem scan_of_fits {q : Char} {ps : List Piece} (hps : ∀ x ∈ ps, x.Fits q) (hq : q ≠ '\\')
    (done : List Piece) (tail : List Char) :
    scan q done (source ps ++ tail) = scan q (ps.reverse ++ done) tail := by
  induction ps generalizing done with
  | nil => rfl
  | cons x ps ih =>
    obtain ⟨hx, hps⟩ := List.forall_mem_cons.mp hps
    have hstep : scan q done (x.source ++ (source ps ++ tail)) =
        scan q (x :: done) (source ps ++ tail) := by
      cases x with
      | plain c => exact scan_plain hx.1 hx.2 done _
      | escaped c =>
        rw [Piece.source, List.cons_append, List.cons_append, scan.eq_def]
        simp only [hq.symm, if_false, if_true]
        rfl
    rw [source, List.flatMap_cons, List.append_assoc, ← source, hstep, ih hps,
      List.reverse_cons, List.append_assoc]
    rfl

/-- The pieces that are read fit, and a literal that is never closed has at most a
backslash behind them. -/
theorem fits_of_scan {q : Char} {done : List Piece} (hdone : ∀ x ∈ done, x.Fits q)
    (cs : List Char) :
    (∀ ps rest, scan q done cs = .closed ps rest → ∀ x ∈ ps, x.Fits q) ∧
      ∀ ps left, scan q done cs = .unclosed ps left →
        (∀ x ∈ ps, x.Fits q) ∧ (left = [] ∨ left = ['\\']) := by
  fun_induction scan q done cs with
  | case1 done =>
    refine ⟨by rintro _ _ ⟨⟩, ?_⟩
    rintro _ _ ⟨⟩
    exact ⟨fun x hx => hdone x (List.mem_reverse.mp hx), .inl rfl⟩
  | case2 done cs =>
    refine ⟨?_, by rintro _ _ ⟨⟩⟩
    rintro _ _ ⟨⟩
    exact fun x hx => hdone x (List.mem_reverse.mp hx)
  | case3 done hquote =>
    refine ⟨by rintro _ _ ⟨⟩, ?_⟩
    rintro _ _ ⟨⟩
    exact ⟨fun x hx => hdone x (List.mem_reverse.mp hx), .inr rfl⟩
  | case4 done e cs hquote ih => exact ih (List.forall_mem_cons.mpr ⟨trivial, hdone⟩)
  | case5 done c cs hquote hbackslash ih =>
    exact ih (List.forall_mem_cons.mpr ⟨⟨hquote, hbackslash⟩, hdone⟩)

end Quoted

/-- The errors for the pairs of a literal that are no escapes. -/
def Quoted.escapeErrors (origin : Position) (ps : List Quoted.Piece) : List LexError :=
  (Quoted.badEscapes origin ps).map fun y => .invalidEscape y.1 y.2

/-- The body of a literal is pieces that fit, one after the other. -/
theorem Lexicon.body_iff {q : Char} {p : Position} {cs value : List Char} {es : List LexError} :
    Body q p cs value es ↔ ∃ ps : List Quoted.Piece, (∀ x ∈ ps, x.Fits q) ∧
      cs = Quoted.source ps ∧ value = ps.map Quoted.Piece.value ∧
      es = Quoted.escapeErrors p ps := by
  constructor
  · intro h
    induction h with
    | nil => exact ⟨[], List.forall_mem_nil _, rfl, rfl, rfl⟩
    | plain hquote hbackslash _ ih =>
      obtain ⟨ps, hps, rfl, rfl, rfl⟩ := ih
      refine ⟨.plain _ :: ps, List.forall_mem_cons.mpr ⟨⟨hquote, hbackslash⟩, hps⟩, rfl, rfl, ?_⟩
      rw [Quoted.escapeErrors, Quoted.escapeErrors, Quoted.badEscapes_cons]
      rfl
    | @escape _ c v _ _ _ known _ ih =>
      obtain ⟨ps, hps, rfl, rfl, rfl⟩ := ih
      refine ⟨.escaped c :: ps, List.forall_mem_cons.mpr ⟨trivial, hps⟩, rfl, ?_, ?_⟩
      · rw [List.map_cons, Quoted.Piece.value, known]
        rfl
      · rw [Quoted.escapeErrors, Quoted.escapeErrors, Quoted.badEscapes_cons,
          Quoted.Piece.badEscape?, known]
        rfl
    | @wrong _ c _ _ _ unknown _ ih =>
      obtain ⟨ps, hps, rfl, rfl, rfl⟩ := ih
      refine ⟨.escaped c :: ps, List.forall_mem_cons.mpr ⟨trivial, hps⟩, rfl, ?_, ?_⟩
      · rw [List.map_cons, Quoted.Piece.value, unknown]
        rfl
      · rw [Quoted.escapeErrors, Quoted.escapeErrors, Quoted.badEscapes_cons,
          Quoted.Piece.badEscape?, unknown]
        rfl
  · rintro ⟨ps, hps, rfl, rfl, rfl⟩
    induction ps generalizing p with
    | nil => exact .nil
    | cons x ps ih =>
      obtain ⟨hx, hrest⟩ := List.forall_mem_cons.mp hps
      rw [Quoted.escapeErrors, Quoted.badEscapes_cons]
      cases x with
      | plain c => exact .plain hx.1 hx.2 (ih hrest)
      | escaped c =>
        rw [Quoted.Piece.badEscape?, List.map_cons, Quoted.Piece.value]
        cases hc : Quoted.escapeValue? c with
        | some v => exact .escape hc (ih hrest)
        | none => exact .wrong hc (ih hrest)

/-! ## 5. What is in the lexicon is read -/

namespace Lexicon

/-- A literal is read to its closing quote. -/
theorem readRun_of_body {q : Char} {p : Position} {cs value : List Char} {es : List LexError}
    (hq : q = '"' ∨ q = '\'') (hbody : Body q (p.advance q) cs value es) (rest : List Char) :
    ∃ bad, es = Run.errors (.token ⟨.string (String.ofList value),
        String.ofList (q :: cs ++ [q]), p⟩ bad) ∧
      readRun p q (cs ++ q :: rest) = (.token ⟨.string (String.ofList value),
        String.ofList (q :: cs ++ [q]), p⟩ bad, rest) := by
  obtain ⟨ps, hps, rfl, rfl, rfl⟩ := body_iff.mp hbody
  have hbackslash : q ≠ '\\' := by rcases hq with rfl | rfl <;> decide
  have hscan := Quoted.scan_of_fits hps hbackslash [] (q :: rest)
  rw [Quoted.scan_quote, List.append_nil, List.reverse_reverse] at hscan
  exact ⟨Quoted.badEscapes (p.advance q) ps, rfl, by
    rw [readRun_of_quote hq, readString_of_closed hscan, Quoted.value]⟩

/-- A literal that is not closed is read to the end of the text. -/
theorem readRun_of_unclosed {q : Char} {p : Position} {cs value left : List Char}
    {es : List LexError} (hq : q = '"' ∨ q = '\'') (hbody : Body q (p.advance q) cs value es)
    (hleft : left = [] ∨ left = ['\\']) :
    ∃ bad, es ++ [.unterminatedString p] = Run.errors (.unclosed (q :: cs ++ left) p bad) ∧
      readRun p q (cs ++ left) = (.unclosed (q :: cs ++ left) p bad, []) := by
  obtain ⟨ps, hps, rfl, rfl, rfl⟩ := body_iff.mp hbody
  have hbackslash : q ≠ '\\' := by rcases hq with rfl | rfl <;> decide
  have hscan : Quoted.scan q [] (Quoted.source ps ++ left) = .unclosed ps left := by
    rw [Quoted.scan_of_fits hps hbackslash, List.append_nil]
    rcases hleft with rfl | rfl
    · rw [Quoted.scan, List.reverse_reverse]
    · rw [Quoted.scan, if_neg hbackslash.symm, if_pos rfl, List.reverse_reverse]
  refine ⟨Quoted.badEscapes (p.advance q) ps, rfl, ?_⟩
  rw [readRun_of_quote hq]
  unfold readString
  rw [hscan]

/-- A token is read as it is written. -/
theorem readRun_of_word {p : Position} {lexeme rest : List Char} {kind : Token.Kind}
    {inside : List LexError} (h : Word p lexeme rest kind inside) :
    ∃ c cs bad, lexeme = c :: cs ∧
      inside = Run.errors (.token ⟨kind, String.ofList lexeme, p⟩ bad) ∧
      readRun p c (cs ++ rest) = (.token ⟨kind, String.ofList lexeme, p⟩ bad, rest) := by
  cases h with
  | @mark c _ _ mark =>
    refine ⟨c, [], [], rfl, rfl, ?_⟩
    rw [List.nil_append, readRun_of_mark mark, String.singleton_eq_ofList]
  | @name c cs _ starts goes stops =>
    obtain ⟨htake, hdrop⟩ := takeWhile_append_stop (List.all_eq_true.mp goes) stops
    refine ⟨c, cs, [], rfl, rfl, ?_⟩
    rw [readRun_of_isNameStart starts, readWord, htake, hdrop]
  | @numeral n _ d longest inRange =>
    obtain ⟨c, cs, hsource, hbare⟩ := longest.cons
    have hscan := longest.scan
    rw [hsource, List.cons_append] at hscan
    refine ⟨c, cs, [], hsource, rfl, ?_⟩
    rw [readRun_of_scan hbare hscan, numeralRun, inRange]
  | @literal q cs _ _ _ quote body =>
    obtain ⟨bad, herrors, hread⟩ := readRun_of_body quote body rest
    refine ⟨q, cs ++ [q], bad, rfl, herrors, ?_⟩
    rw [List.append_assoc]
    exact hread

/-- A text is read as the lexicon says. -/
theorem Lexes.readFrom {p : Position} {text : List Char} {ts : List Token} {es : List LexError}
    (h : Lexes p text ts es) : readFrom p text = (ts, es) := by
  induction h with
  | done => exact readFrom_nil _
  | blanks _ all _ _ ih => rw [readFrom_blanks all, ih]
  | token word _ ih =>
    obtain ⟨c, cs, bad, rfl, rfl, hread⟩ := readRun_of_word word
    rw [List.cons_append, readFrom_cons hread, Run.source, String.toList_ofList, ih]
    rfl
  | illegal nothing _ ih =>
    have hread := readRun_of_illegal nothing.bare
      (Numeral.scan_eq_none_iff.mpr nothing.noNumeral) nothing.noName
    rw [readFrom_cons (hread _)]
    exact congrArg (fun r => (r.1, LexError.illegalCharacter _ _ :: r.2)) ih
  | @outOfRange p n rest ts es longest outOfRange _ ih =>
    obtain ⟨c, cs, hsource, hbare⟩ := longest.cons
    have hscan := longest.scan
    rw [hsource, List.cons_append] at hscan
    have hread : readRun p c (cs ++ rest) = (.outOfRange n.source p, rest) := by
      rw [readRun_of_scan hbare hscan, numeralRun, outOfRange]
    rw [hsource, List.cons_append, readFrom_cons hread, Run.source, ih]
    rw [← hsource]
    rfl
  | unclosed quote body ends =>
    obtain ⟨bad, herrors, hread⟩ := readRun_of_unclosed quote body ends
    rw [List.cons_append, readFrom_cons hread, readFrom_nil, herrors]
    exact Prod.ext rfl (List.append_nil _)

end Lexicon

/-! ## 6. What is read is in the lexicon -/

theorem stops_dropWhile (f : Char → Bool) (cs : List Char) :
    ∀ c ∈ (cs.dropWhile f).head?, f c = false := by
  intro c hc
  have hstop := List.head?_dropWhile_not f cs
  rw [Option.mem_def.mp hc] at hstop
  exact hstop

namespace Lexicon

/-- Whether a run is a stretch in front of the text behind it: it adds its token and its
errors to those of the text. -/
def Extends (p : Position) (r : Run × List Char) : Prop :=
  ∀ {ts : List Token} {es : List LexError}, Lexes (p.after r.1.source) r.2 ts es →
    Lexes p (r.1.source ++ r.2) (r.1.token?.toList ++ ts) (r.1.errors ++ es)

theorem extends_readString {q : Char} (hq : q = '"' ∨ q = '\'') (p : Position) (cs : List Char) :
    Extends p (readString p q cs) := by
  intro ts es hrest
  obtain ⟨hclosed, hunclosed⟩ :=
    Quoted.fits_of_scan (q := q) (List.forall_mem_nil _) cs
  cases hscan : Quoted.scan q [] cs with
  | closed ps rest =>
    have hbody := body_iff.mpr ⟨ps, hclosed ps rest hscan, rfl, rfl, Eq.refl
      (Quoted.escapeErrors (p.advance q) ps)⟩
    rw [readString_of_closed hscan] at hrest ⊢
    simp only [Run.source, String.toList_ofList] at hrest ⊢
    exact .token (.literal hq hbody) hrest
  | unclosed ps left =>
    obtain ⟨hfits, hleft⟩ := hunclosed ps left hscan
    have hbody := body_iff.mpr ⟨ps, hfits, rfl, rfl, Eq.refl
      (Quoted.escapeErrors (p.advance q) ps)⟩
    unfold readString at hrest ⊢
    rw [hscan] at hrest ⊢
    have hnone := hrest.readFrom
    rw [readFrom_nil] at hnone
    cases hnone
    simp only [List.append_nil]
    exact .unclosed hq hbody hleft

theorem extends_numeralRun {n : Numeral} {rest : List Char}
    (h : n.IsLongest (n.source ++ rest)) (p : Position) : Extends p (numeralRun p n, rest) := by
  intro ts es hrest
  rw [numeralRun_source] at hrest ⊢
  unfold numeralRun
  split
  · next d hd => exact .token (.numeral h hd) hrest
  · next hnone => exact .outOfRange h hnone hrest

/-- Every run is a stretch. -/
theorem extends_readRun (p : Position) (c : Char) (cs : List Char) : Extends p (readRun p c cs) := by
  apply readRun_cases (P := Extends p) p c cs
  case blank =>
    intro hc ts es hrest
    have hall : (c :: cs.takeWhile isBlank).all isBlank = true := by
      rw [List.all_cons, hc, List.all_takeWhile]
      rfl
    exact .blanks (List.cons_ne_nil _ _) hall (stops_dropWhile isBlank cs) hrest
  case mark =>
    intro kind hkind ts es hrest
    simp only [Run.source, String.toList_singleton] at hrest ⊢
    rw [String.singleton_eq_ofList]
    exact .token (.mark hkind) hrest
  case quoted => exact fun hq => extends_readString hq p cs
  case numeral =>
    intro n rest _ hscan
    refine extends_numeralRun ?_ p
    rw [Numeral.scan_source hscan]
    exact Numeral.isLongest_of_scan hscan
  case word =>
    intro hc ts es hrest
    simp only [readWord, Run.source, String.toList_ofList] at hrest ⊢
    exact .token (.name hc List.all_takeWhile (stops_dropWhile isNameRest cs)) hrest
  case illegal =>
    intro hbare hscan hname ts es hrest
    exact .illegal ⟨hbare, hname, Numeral.scan_eq_none_iff.mp hscan⟩ hrest

/-- A text has the tokens and errors that are read. -/
theorem lexes_readFrom (p : Position) (text : List Char) :
    Lexes p text (readFrom p text).1 (readFrom p text).2 := by
  induction p, text using runs_induction with
  | nil p =>
    rw [readFrom_nil]
    exact .done
  | run p c cs ih =>
    have hextends := extends_readRun p c cs ih
    rw [readRun_source] at hextends
    rw [readFrom_cons (Eq.refl ((readRun p c cs).1, (readRun p c cs).2))]
    exact hextends

/-- **The lexicon is what is read.** -/
theorem lexes_iff {p : Position} {text : List Char} {ts : List Token} {es : List LexError} :
    Lexes p text ts es ↔ readFrom p text = (ts, es) := by
  constructor
  · exact Lexes.readFrom
  · intro h
    have hlexes := lexes_readFrom p text
    rwa [h] at hlexes

end Lexicon

/-! ## 7. A lexeme by itself -/

theorem Numeral.IsLongest.alone {n : Numeral} {text : List Char} (h : n.IsLongest text) :
    n.IsLongest (n.source ++ []) where
  isWritten := h.isWritten
  begins := List.prefix_append n.source []
  longest := by
    intro m _ hm
    rw [List.append_nil] at hm
    exact hm.length_le

namespace Lexicon

/-- A body without an error may stand anywhere. -/
theorem Body.anywhere {q : Char} {p : Position} {cs value : List Char} {es : List LexError}
    (h : Body q p cs value es) (hes : es = []) (p' : Position) : Body q p' cs value [] := by
  induction h generalizing p' with
  | nil => exact .nil
  | plain hquote hbackslash _ ih => exact .plain hquote hbackslash (ih hes _)
  | escape known _ ih => exact .escape known (ih hes _)
  | wrong => cases hes

/-- A token without an error may stand anywhere, and alone. -/
theorem Word.alone {p : Position} {lexeme rest : List Char} {kind : Token.Kind}
    {es : List LexError} (h : Word p lexeme rest kind es) (hes : es = []) (p' : Position) :
    Word p' lexeme [] kind [] := by
  cases h with
  | mark mark => exact .mark mark
  | name starts goes _ =>
    refine .name starts goes ?_
    rintro d ⟨⟩
  | numeral longest inRange => exact .numeral longest.alone inRange
  | literal quote body => exact .literal quote (body.anywhere hes _)

/-- A token that stands alone is read as that token and nothing else. -/
theorem Word.readFrom {p : Position} {lexeme : List Char} {kind : Token.Kind}
    {es : List LexError} (h : Word p lexeme [] kind es) :
    readFrom p lexeme = ([⟨kind, String.ofList lexeme, p⟩], es) := by
  have hlexes := Lexes.token h .done
  rw [List.append_nil, List.append_nil] at hlexes
  exact hlexes.readFrom

/-- Each token of a text without an error is a word of the lexicon. -/
theorem Lexes.word_of_mem {p : Position} {text : List Char} {ts : List Token}
    {es : List LexError} (h : Lexes p text ts es) (hes : es = []) {t : Token} (ht : t ∈ ts) :
    ∃ q lexeme rest, t = ⟨t.kind, String.ofList lexeme, q⟩ ∧ Word q lexeme rest t.kind [] := by
  induction h with
  | done => exact absurd ht List.not_mem_nil
  | blanks _ _ _ _ ih => exact ih hes ht
  | token word _ ih =>
    obtain ⟨hinside, hbehind⟩ := List.append_eq_nil_iff.mp hes
    rcases List.mem_cons.mp ht with rfl | ht
    · exact ⟨_, _, _, rfl, hinside ▸ word⟩
    · exact ih hbehind ht
  | illegal => cases hes
  | outOfRange => cases hes
  | unclosed => exact absurd ht List.not_mem_nil

end Lexicon

/-- **The lexeme of a token is that token again**, wherever it stands, if its text
was read without an error. -/
theorem readFrom_lexeme {p : Position} {text : List Char} (herrors : (readFrom p text).2 = [])
    {t : Token} (ht : t ∈ (readFrom p text).1) (q : Position) :
    readFrom q t.lexeme.toList = ([{ t with position := q }], []) := by
  obtain ⟨p', lexeme, rest, hlexeme, hword⟩ :=
    (Lexicon.lexes_readFrom p text).word_of_mem herrors ht
  rw [hlexeme, String.toList_ofList]
  exact (hword.alone rfl q).readFrom

namespace Lexicon

/-! ## 8. Whole texts -/

/-- Whether a text is some lexemes in order, with nothing but blanks around them. -/
inductive Interleaved : List String → List Char → Prop
  | trail {gap : List Char} (all : gap.all isBlank = true) : Interleaved [] gap
  | lexeme {gap rest : List Char} {w : String} {ws : List String}
      (all : gap.all isBlank = true) (behind : Interleaved ws rest) :
      Interleaved (w :: ws) (gap ++ (w.toList ++ rest))

theorem Interleaved.blanks {gap text : List Char} {ws : List String}
    (hgap : gap.all isBlank = true) (h : Interleaved ws text) : Interleaved ws (gap ++ text) := by
  cases h with
  | trail all => exact .trail (by rw [List.all_append, hgap, all]; rfl)
  | @lexeme gap' rest w ws all behind =>
    rw [← List.append_assoc]
    exact .lexeme (by rw [List.all_append, hgap, all]; rfl) behind

/-- Without an error, a text is its lexemes and blanks. -/
theorem Lexes.interleaved {p : Position} {text : List Char} {ts : List Token}
    {es : List LexError} (h : Lexes p text ts es) (hes : es = []) :
    Interleaved (ts.map Token.lexeme) text := by
  induction h with
  | done => exact .trail rfl
  | blanks _ all _ _ ih => exact (ih hes).blanks all
  | @token p lexeme rest kind ts inside es word _ ih =>
    have hbehind : Interleaved (String.ofList lexeme :: ts.map Token.lexeme)
        ([] ++ ((String.ofList lexeme).toList ++ rest)) :=
      .lexeme rfl (ih (List.append_eq_nil_iff.mp hes).2)
    rwa [String.toList_ofList] at hbehind
  | illegal => cases hes
  | outOfRange => cases hes
  | unclosed => cases (List.append_eq_nil_iff.mp hes).2

end Lexicon

/-- **A text is read without loss.** Every text is a sequence of stretches as the lexicon
has them, with nothing in between and nothing left over: blanks as many as stand together,
tokens, characters with which nothing begins, longest numerals out of range, and at the
end, if at all, a literal that is never closed. The tokens that are read are those of the
stretches, and the errors that are reported are those of the stretches, each of them once.
The text has no other tokens and errors. So where no error is reported, it is its lexemes
with nothing but blanks around them. -/
theorem Lexed.ofText_lexes (text : String) :
    (∀ ts es, Lexicon.Lexes .start text.toList ts es ↔
      ts = (Lexed.ofText text).tokens ∧ es = (Lexed.ofText text).errors) ∧
    ((Lexed.ofText text).errors = [] →
      Lexicon.Interleaved ((Lexed.ofText text).tokens.map Token.lexeme) text.toList) := by
  have hread : readFrom .start text.toList =
      ((Lexed.ofText text).tokens, (Lexed.ofText text).errors) := rfl
  constructor
  · intro ts es
    rw [Lexicon.lexes_iff, hread, Prod.mk.injEq]
    exact ⟨fun h => ⟨h.1.symm, h.2.symm⟩, fun h => ⟨h.1.symm, h.2.symm⟩⟩
  · exact (Lexicon.lexes_iff.mpr hread).interleaved

/-- In `eq(a,\t-1.50 )` there is no error. In `é- 7'\q\` there are four: nothing begins
with the accented letter and with the lone minus sign, `\q` is no escape, and the literal
is never closed. -/
theorem Lexed.ofText_lexes_of_sign :
    (Lexed.ofText "eq(a,\t-1.50 )").errors = [] ∧
    Lexicon.Interleaved ["eq", "(", "a", ",", "-1.50", ")"] "eq(a,\t-1.50 )".toList ∧
    Lexicon.Lexes .start "é- 7'\\q\\".toList
      [⟨.number ⟨7, 0, by decide, by decide⟩, "7", ⟨4, 1, 4⟩⟩]
      [.illegalCharacter 'é' ⟨0, 1, 1⟩, .illegalCharacter '-' ⟨2, 1, 2⟩,
        .invalidEscape 'q' ⟨6, 1, 6⟩, .unterminatedString ⟨5, 1, 5⟩] := by
  have herrors : (Lexed.ofText "eq(a,\t-1.50 )").errors = [] := by decide +kernel
  have hlexemes : (Lexed.ofText "eq(a,\t-1.50 )").tokens.map Token.lexeme =
      ["eq", "(", "a", ",", "-1.50", ")"] := by decide +kernel
  refine ⟨herrors, ?_, ?_⟩
  · rw [← hlexemes]
    exact (Lexed.ofText_lexes _).2 herrors
  · exact ((Lexed.ofText_lexes _).1 _ _).mpr ⟨by decide +kernel, by decide +kernel⟩

end FilterQuery
