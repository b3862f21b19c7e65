/-
FilterQuery.Proofs.QuotedNumbers — a quoted number is what the bare one is.

A number field takes strings as well. A string is checked against the pattern
of numerals and then given to a reader of decimals; a bare number is cut out of
the query by a scanner, and its digits are given to a reader of decimals too.
The two ways accept the same texts: what may stand in quotes is just what,
without them, is read as one number and nothing else, and it has the value of
that number.

## Digits that are none

The pattern speaks of digits, and there are more digits than the ten of ASCII.
A string of others matches the pattern, and it is left to the reader to refuse
it. So what is asked of a reader is two things (`Decimal.ReadsAscii`): it reads
numerals written in ASCII, and it reads nothing that has another digit in it.
With any such reader, and whatever characters the pattern takes for digits in
addition, the same strings pass (`Decimal.ReadsAscii.accepts_iff`).
-/
import FilterQuery.Proofs.Literals
import FilterQuery.Proofs.Patterns

namespace FilterQuery

/-! ## 1. Readers of decimals -/

namespace Decimal

theorem ofText?_eq_some {s : String} {d : Decimal} :
    ofText? s = some d ↔ ∃ n : Numeral, n.IsWritten ∧ s.toList = n.source ∧
      ofNumeral? n = some d := by
  simp only [ofText?, Option.bind_eq_some_iff, Numeral.ofText?_eq_some, and_assoc]

/-- Whether a reader of decimals reads the numerals that are written in ASCII digits, and
no text with a digit in it that is none of these. -/
structure ReadsAscii (digit : Char → Prop) (read : String → Option Decimal) : Prop where
  ascii : ∀ n : Numeral, n.IsWritten → read (String.ofList n.source) = ofNumeral? n
  other : ∀ s : String, ∀ c ∈ s.toList, digit c → c.isDigit = false → read s = none

namespace ReadsAscii

variable {digit : Char → Prop} {read : String → Option Decimal} {s : String} {d : Decimal}

/-- A numeral that is read is written in ASCII digits, whatever else is a digit. -/
theorem isWritten (h : ReadsAscii digit read) {n : Numeral} (hn : n.WrittenWith digit)
    (hs : s.toList = n.source) (hread : read s = some d) : n.IsWritten := by
  have hdigit : ∀ c ∈ s.toList, digit c → c.isDigit = true := by
    intro c hc hclass
    rw [← Bool.not_eq_false]
    intro hother
    rw [h.other s c hc hclass hother] at hread
    cases hread
  exact ⟨hn.whole_ne_nil,
    fun c hc => hdigit c (hs ▸ Numeral.mem_source (.inl hc)) (hn.digit_whole c hc),
    fun c hc => hdigit c (hs ▸ Numeral.mem_source (.inr hc)) (hn.digit_fraction c hc)⟩

/-- Behind the pattern, every reader accepts the same texts and gives the same numbers. -/
theorem accepts_iff (h : ReadsAscii digit read) (hascii : ∀ c, c.isDigit = true → digit c) :
    s.toList ∈ Pattern.numeral digit ∧ read s = some d ↔ ofText? s = some d := by
  rw [ofText?_eq_some, Pattern.mem_numeral]
  constructor
  · rintro ⟨⟨n, hn, hs⟩, hread⟩
    have hwritten := h.isWritten hn hs hread
    refine ⟨n, hwritten, hs, ?_⟩
    rw [← h.ascii n hwritten, ← hs, String.ofList_toList, hread]
  · rintro ⟨n, hn, hs, hd⟩
    refine ⟨⟨n, ⟨hn.whole_ne_nil, fun c hc => hascii c (hn.isDigit_whole c hc),
      fun c hc => hascii c (hn.isDigit_fraction c hc)⟩, hs⟩, ?_⟩
    rw [← hd, ← h.ascii n hn, ← hs, String.ofList_toList]

end ReadsAscii

/-- The reader of decimals is one of them, if sign and point are no digits. -/
theorem readsAscii_ofText? {digit : Char → Prop} (hsign : ¬digit '-') (hpoint : ¬digit '.') :
    ReadsAscii digit ofText? where
  ascii := by
    intro n hn
    have hnumeral : Numeral.ofText? (String.ofList n.source) = some n :=
      Numeral.ofText?_eq_some.mpr ⟨hn, String.toList_ofList⟩
    rw [ofText?, hnumeral, Option.bind_some]
  other := by
    intro s c hc hclass hother
    rw [Option.eq_none_iff_forall_ne_some]
    intro d hd
    obtain ⟨n, hn, hs, _⟩ := ofText?_eq_some.mp hd
    rcases hn.cases_of_mem (hs ▸ hc) with hdigit | rfl | rfl
    · rw [hother] at hdigit
      cases hdigit
    · exact hsign hclass
    · exact hpoint hclass

end Decimal

/-! ## 2. Numbers alone in a text -/

namespace Lexicon

theorem ofWord_ne_number (w : String) (d : Decimal) : Token.Kind.ofWord w ≠ .number d := by
  unfold Token.Kind.ofWord
  split
  · rintro ⟨⟩
  split
  · rintro ⟨⟩
  split
  · rintro ⟨⟩
  split
  · rintro ⟨⟩
  · rintro ⟨⟩

/-- Of the words of the lexicon, only numerals are numbers. -/
theorem Word.numeral_of_number {p : Position} {lexeme rest : List Char} {kind : Token.Kind}
    {es : List LexError} {d : Decimal} (h : Word p lexeme rest kind es)
    (hkind : kind = .number d) :
    ∃ n : Numeral, n.IsWritten ∧ lexeme = n.source ∧ Decimal.ofNumeral? n = some d := by
  cases h with
  | mark mark => rcases markKind?_cases mark with ⟨_, rfl⟩ | ⟨_, rfl⟩ | ⟨_, rfl⟩ <;> cases hkind
  | name => exact absurd hkind (ofWord_ne_number _ d)
  | numeral longest inRange =>
    cases hkind
    exact ⟨_, longest.isWritten, rfl, inRange⟩
  | literal => cases hkind

end Lexicon

namespace Decimal

variable {s : String} {d : Decimal}

/-- What is read as one number and nothing else writes that number. -/
theorem ofText?_of_readFrom {p q : Position}
    (h : readFrom p s.toList = ([⟨.number d, s, q⟩], [])) : ofText? s = some d := by
  obtain ⟨_, lexeme, _, hlexeme, hword⟩ :=
    (Lexicon.lexes_iff.mpr h).word_of_mem rfl List.mem_cons_self
  obtain ⟨n, hn, rfl, hd⟩ := hword.numeral_of_number rfl
  have hs : s = String.ofList n.source := congrArg Token.lexeme hlexeme
  exact ofText?_eq_some.mpr ⟨n, hn, by rw [hs, String.toList_ofList], hd⟩

/-- What writes a number is read as it and nothing else. -/
theorem readFrom_of_ofText? (h : ofText? s = some d) (p : Position) :
    readFrom p s.toList = ([⟨.number d, s, p⟩], []) := by
  obtain ⟨n, hn, hs, hd⟩ := ofText?_eq_some.mp h
  have hends : Numeral.EndsBefore [] := by rintro c ⟨⟩
  have hlongest := Numeral.isLongest_of_scan (Numeral.scan_source_append hn hends)
  have hread := (@Lexicon.Word.numeral p n [] d hlongest hd).readFrom
  rwa [← hs, String.ofList_toList] at hread

end Decimal

/-! ## 3. Numbers in a number field -/

namespace Field

variable {field : Field} {op : CompareOp}

theorem coerce_number (htype : field.type = .number) (hop : op ≠ .like) (d : Decimal) :
    field.coerce op (.number d) = .ok (.ofDecimal d) :=
  (coerce_iff (by rintro ⟨⟩) fun hlike => absurd hlike hop).mpr (by rw [htype]; rfl)

/-- A string is accepted as the decimal that it writes. -/
theorem coerce_string_iff (htype : field.type = .number) (hop : op ≠ .like) {s : String}
    {v : Value} :
    field.coerce op (.string s) = .ok v ↔ ∃ d, Decimal.ofText? s = some d ∧ .ofDecimal d = v := by
  rw [coerce_iff (by rintro ⟨⟩) fun hlike => absurd hlike hop, htype]
  exact Option.map_eq_some_iff

/-- **Quoted and bare, a number is the same to a field.** A number field accepts a string
exactly if the string by itself is read without an error as one number that reaches over
all of it. The number has a value then, and it is the value of the string. All this is so
whatever digits the pattern of numerals knows beside those of ASCII, as long as the reader
behind it reads numerals and refuses other digits. -/
theorem coerce_quoted_number (htype : field.type = .number) (hop : op ≠ .like) (s : String) :
    ((∃ v, field.coerce op (.string s) = .ok v) ↔ (Lexed.ofText s).errors = [] ∧
      ∃ n p, (Lexed.ofText s).tokens = [⟨.number n, s, p⟩]) ∧
    (∀ n p, (Lexed.ofText s).errors = [] → (Lexed.ofText s).tokens = [⟨.number n, s, p⟩] →
      ∃ v, field.coerce op (.number n) = .ok v ∧ field.coerce op (.string s) = .ok v) ∧
    ∀ (digit : Char → Prop) (read : String → Option Decimal),
      (∀ c, c.isDigit = true → digit c) → Decimal.ReadsAscii digit read →
      ∀ v, field.coerce op (.string s) = .ok v ↔
        s.toList ∈ Pattern.numeral digit ∧ ∃ d, read s = some d ∧ .ofDecimal d = v := by
  have hlexed : readFrom .start s.toList = ((Lexed.ofText s).tokens, (Lexed.ofText s).errors) :=
    rfl
  have halone : ∀ n p, (Lexed.ofText s).errors = [] →
      (Lexed.ofText s).tokens = [⟨.number n, s, p⟩] → Decimal.ofText? s = some n := by
    intro n p herrors htokens
    rw [herrors, htokens] at hlexed
    exact Decimal.ofText?_of_readFrom hlexed
  refine ⟨⟨?_, ?_⟩, ?_, ?_⟩
  · rintro ⟨v, hv⟩
    obtain ⟨d, hd, _⟩ := (coerce_string_iff htype hop).mp hv
    rw [Decimal.readFrom_of_ofText? hd, Prod.mk.injEq] at hlexed
    exact ⟨hlexed.2.symm, d, .start, hlexed.1.symm⟩
  · rintro ⟨herrors, n, p, htokens⟩
    exact ⟨.ofDecimal n, (coerce_string_iff htype hop).mpr ⟨n, halone n p herrors htokens, rfl⟩⟩
  · intro n p herrors htokens
    exact ⟨.ofDecimal n, coerce_number htype hop n,
      (coerce_string_iff htype hop).mpr ⟨n, halone n p herrors htokens, rfl⟩⟩
  · intro digit read hascii hreads v
    rw [coerce_string_iff htype hop]
    simp only [← hreads.accepts_iff hascii, and_assoc, exists_and_left]

/-- `'-007.50'` is the number −7.5. The Arabic-Indic digit three matches the pattern if it
is among the digits, but it is no number. -/
theorem coerce_quoted_number_of_zeros :
    let field : Field := ⟨.number, false⟩
    let digit : Char → Prop := fun c => c.isDigit = true ∨ 0x660 ≤ c.toNat ∧ c.toNat ≤ 0x669
    field.coerce .lt (.string "-007.50") = .ok (.decimal ⟨-75, 1, by decide, by decide⟩) ∧
    (∀ c, c.isDigit = true → digit c) ∧ Decimal.ReadsAscii digit Decimal.ofText? ∧
    "٣".toList ∈ Pattern.numeral digit ∧
    ¬∃ v, field.coerce .lt (.string "٣") = .ok v := by
  intro field digit
  have hascii : ∀ c, c.isDigit = true → digit c := fun c => .inl
  have hreads : Decimal.ReadsAscii digit Decimal.ofText? :=
    Decimal.readsAscii_ofText? (by decide) (by decide)
  have hthree : "٣".toList ∈ Pattern.numeral digit :=
    Pattern.mem_numeral.mpr ⟨⟨false, ['٣'], []⟩, ⟨List.cons_ne_nil _ _,
      List.forall_mem_singleton.mpr (.inr (by decide)), List.forall_mem_nil _⟩, by decide⟩
  have hlike : CompareOp.lt ≠ .like := by decide
  refine ⟨?_, hascii, hreads, hthree, ?_⟩
  · obtain ⟨v, hbare, hquoted⟩ := (@coerce_quoted_number field .lt rfl hlike "-007.50").2.1
      ⟨-750, 2, by decide, by decide⟩ .start (by decide +kernel) (by decide +kernel)
    rw [hquoted, ← hbare]
    decide +kernel
  · rintro ⟨v, hv⟩
    obtain ⟨_, d, hd, _⟩ := ((@coerce_quoted_number field .lt rfl hlike "٣").2.2 digit _ hascii
      hreads v).mp hv
    have hnone : Decimal.ofText? "٣" = none := by decide +kernel
    rw [hnone] at hd
    cases hd

end Field

end FilterQuery
