/-
FilterQuery.Proofs.Written — what is written is read as it was meant.

`Reads text P` says that a text, wherever it stands in a query, is read
as tokens that have the property `P`, without an error, and that reading
goes on behind it. Words and numerals are only read so if a mark or the
end of the text stands behind them (`Stops`); that is what the relation
asks of the rest.

The pieces of a query are read so one by one: marks and blanks in front
of a text that is (`reads_mark`, `reads_blank`), words, numerals and
quoted strings (`reads_word`, `reads_numeral`, `reads_quote`). They are
put together by `Reads.append`.

## Positions

A token carries its position, and what is read behind a piece depends on
where the piece ends. Both are left open: the relation speaks of some
tokens and of some position to go on from.
-/
import FilterQuery.Proofs.Blanks

namespace FilterQuery

/-! ## 1. Reading on -/

/-- Whether a text may stand behind a word or a numeral. -/
def Stops (rest : List Char) : Prop := ∀ c ∈ rest.head?, c = '(' ∨ c = ')' ∨ c = ','

/-- A text is read as tokens with a property, and reading goes on behind it. -/
def Reads (text : List Char) (P : List Token → Prop) : Prop :=
  ∀ (p : Position) (rest : List Char), Stops rest → ∃ ts q, P ts ∧
    readFrom p (text ++ rest) = (ts ++ (readFrom q rest).1, (readFrom q rest).2)

namespace Reads

theorem mono {text : List Char} {P Q : List Token → Prop} (h : Reads text P)
    (himp : ∀ ts, P ts → Q ts) : Reads text Q := by
  intro p rest hrest
  obtain ⟨ts, q, hts, hread⟩ := h p rest hrest
  exact ⟨ts, q, himp ts hts, hread⟩

theorem nil : Reads [] (· = []) := fun p _ _ => ⟨[], p, rfl, rfl⟩

/-- Two texts are read one after the other if a mark stands between them. -/
theorem append {x y : List Char} {P Q : List Token → Prop} (hx : Reads x P) (hy : Reads y Q)
    (hstops : ∀ rest, Stops (y ++ rest)) :
    Reads (x ++ y) fun ts => ∃ us vs, ts = us ++ vs ∧ P us ∧ Q vs := by
  intro p rest hrest
  obtain ⟨us, q, hus, hreadx⟩ := hx p (y ++ rest) (hstops rest)
  obtain ⟨vs, r, hvs, hready⟩ := hy q rest hrest
  refine ⟨us ++ vs, r, ⟨us, vs, rfl, hus, hvs⟩, ?_⟩
  rw [List.append_assoc, hreadx, hready, List.append_assoc]

/-- A text is read as one token if it is the run of that token. -/
theorem token {c : Char} {cs : List Char} {P : Token → Prop}
    (h : ∀ p rest, Stops rest → ∃ t, readRun p c (cs ++ rest) = (.token t [], rest) ∧ P t) :
    Reads (c :: cs) fun ts => ∃ t, ts = [t] ∧ P t := by
  intro p rest hrest
  obtain ⟨t, hrun, ht⟩ := h p rest hrest
  exact ⟨[t], _, ⟨t, rfl, ht⟩, readFrom_token hrun⟩

/-- What a whole text is read as. -/
theorem ofText {text : String} {P : List Token → Prop} (h : Reads text.toList P) :
    P (Lexed.ofText text).tokens ∧ (Lexed.ofText text).errors = [] := by
  obtain ⟨ts, q, hts, hread⟩ := h .start [] (by simp [Stops])
  rw [List.append_nil, readFrom_nil, List.append_nil] at hread
  have htokens : (Lexed.ofText text).tokens = ts := congrArg Prod.fst hread
  have herrors : (Lexed.ofText text).errors = [] := congrArg Prod.snd hread
  exact ⟨htokens ▸ hts, herrors⟩

end Reads

/-! ## 2. Marks and blanks -/

/-- A mark is read whatever stands behind it. -/
theorem reads_mark {c : Char} {kind : Token.Kind} {text : List Char} {P : List Token → Prop}
    (hmark : markKind? c = some kind) (h : Reads text P) :
    Reads (c :: text) fun ts => ∃ t us, ts = t :: us ∧ t.kind = kind ∧ P us := by
  intro p rest hrest
  obtain ⟨us, q, hus, hread⟩ := h (p.after (String.singleton c).toList) rest hrest
  refine ⟨_ :: us, q, ⟨⟨kind, String.singleton c, p⟩, us, rfl, rfl, hus⟩, ?_⟩
  rw [List.cons_append, readFrom_token (readRun_of_mark hmark p (text ++ rest)), hread]
  rfl

theorem reads_blank {text : List Char} {P : List Token → Prop} (h : Reads text P) :
    Reads (' ' :: text) P := by
  intro p rest hrest
  obtain ⟨ts, q, hts, hread⟩ := h (p.advance ' ') rest hrest
  exact ⟨ts, q, hts, by rw [List.cons_append, readFrom_blank rfl, hread]⟩

theorem stops_cons {c : Char} {rest : List Char} (h : c = '(' ∨ c = ')' ∨ c = ',') :
    Stops (c :: rest) := by
  intro d hd
  obtain rfl : c = d := Option.some.inj hd
  exact h

/-! ## 3. Words -/

/-- A name is read as a word. -/
theorem reads_word {w : String} (h : isName w = true) :
    Reads w.toList fun ts => ∃ t, ts = [t] ∧ t.kind = .ofWord w := by
  unfold isName at h
  split at h
  · exact absurd h (by simp)
  · next c cs hw =>
    rw [hw]
    rw [Bool.and_eq_true, List.all_eq_true] at h
    refine Reads.token fun p rest hrest => ⟨⟨.ofWord w, w, p⟩, ?_, rfl⟩
    have hstop : ∀ d ∈ rest.head?, isNameRest d = false := by
      intro d hd
      rcases hrest d hd with rfl | rfl | rfl <;> decide
    obtain ⟨htake, hdrop⟩ := takeWhile_append_stop h.2 hstop
    rw [readRun_of_isNameStart h.1]
    simp only [readWord, htake, hdrop, ← hw, String.ofList_toList]

/-! ## 4. Numerals -/

theorem Stops.endsBefore {rest : List Char} (h : Stops rest) : Numeral.EndsBefore rest := by
  intro c hc
  rcases h c hc with rfl | rfl | rfl <;> decide

/-- A numeral within bounds is read as its number. -/
theorem reads_numeral {n : Numeral} {d : Decimal} (hn : n.IsWritten)
    (hd : Decimal.ofNumeral? n = some d) :
    Reads n.source fun ts => ∃ t, ts = [t] ∧ t.kind = .number d := by
  obtain ⟨c, cs, hsource, hc⟩ := Numeral.source_cases hn
  have hrange : 44 < c.toNat ∧ c.toNat ≤ 122 := by
    rcases hc with rfl | hc
    · decide
    · obtain ⟨hlow, hhigh⟩ : 48 ≤ c.toNat ∧ c.toNat ≤ 57 := Char.isDigit_iff_toNat.mp hc
      omega
  rw [hsource]
  refine Reads.token fun p rest hrest => ⟨⟨.number d, String.ofList n.source, p⟩, ?_, rfl⟩
  have hscan := Numeral.scan_source_append hn hrest.endsBefore
  rw [hsource, List.cons_append] at hscan
  rw [readRun_of_scan (isBare_of_range hrange.1 hrange.2) hscan]
  simp only [numeralRun, hd]

/-- A decimal is read from its text. -/
theorem reads_decimal (d : Decimal) :
    Reads d.text.toList fun ts => ∃ t, ts = [t] ∧ t.kind = .number d := by
  rw [Decimal.text, String.toList_ofList]
  exact reads_numeral d.isWritten_toNumeral d.ofNumeral?_toNumeral

/-! ## 5. Quoted strings -/

namespace Quoted

/-- A character is scanned as one piece, which stands for it. -/
theorem scan_escape (c : Char) (done : List Piece) (cs : List Char) :
    ∃ x, scan '\'' done (escape c ++ cs) = scan '\'' (x :: done) cs ∧ x.value = c ∧
      x.badEscape? = none := by
  unfold escape
  split
  · exact ⟨.escaped '\'', rfl, rfl, rfl⟩
  · exact ⟨.escaped '\\', rfl, rfl, rfl⟩
  · exact ⟨.escaped 'n', rfl, rfl, rfl⟩
  · exact ⟨.escaped 't', rfl, rfl, rfl⟩
  · exact ⟨.escaped 'r', rfl, rfl, rfl⟩
  · next hquote hbackslash _ _ _ =>
    exact ⟨.plain c, scan_plain hquote hbackslash done cs, rfl, rfl⟩

/-- What has been escaped is scanned up to the quote behind it. -/
theorem scan_flatMap_escape (s : List Char) (done : List Piece) (rest : List Char) :
    ∃ ps, scan '\'' done (s.flatMap escape ++ '\'' :: rest) = .closed (done.reverse ++ ps) rest ∧
      ps.map Piece.value = s ∧ ∀ x ∈ ps, x.badEscape? = none := by
  induction s generalizing done with
  | nil =>
    refine ⟨[], ?_, rfl, by simp⟩
    rw [List.flatMap_nil, List.nil_append, List.append_nil, scan_quote]
  | cons c s ih =>
    obtain ⟨x, hscan, hvalue, hgood⟩ := scan_escape c done (s.flatMap escape ++ '\'' :: rest)
    obtain ⟨ps, hps, hvalues, hall⟩ := ih (x :: done)
    refine ⟨x :: ps, ?_, by rw [List.map_cons, hvalue, hvalues], ?_⟩
    · rw [List.flatMap_cons, List.append_assoc, hscan, hps]
      simp
    · exact List.forall_mem_cons.mpr ⟨hgood, hall⟩

end Quoted

/-- A quoted string is read as the string, whatever its characters are. -/
theorem reads_quote (s : String) :
    Reads (Quoted.quote s).toList fun ts => ∃ t, ts = [t] ∧ t.kind = .string s := by
  rw [Quoted.quote, String.toList_ofList, List.cons_append]
  refine Reads.token ?_
  intro p rest _
  obtain ⟨ps, hscan, hvalue, hgood⟩ := Quoted.scan_flatMap_escape s.toList [] rest
  have hrun : readRun p '\'' (s.toList.flatMap Quoted.escape ++ ['\''] ++ rest) =
      readString p '\'' (s.toList.flatMap Quoted.escape ++ '\'' :: rest) := by
    rw [List.append_assoc]
    rfl
  rw [List.reverse_nil, List.nil_append] at hscan
  simp only [hrun, readString, hscan, Quoted.badEscapes_eq_nil_iff.mpr hgood]
  refine ⟨_, rfl, ?_⟩
  rw [Quoted.value, hvalue, String.ofList_toList]

end FilterQuery
