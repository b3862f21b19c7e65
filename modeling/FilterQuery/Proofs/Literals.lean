/-
FilterQuery.Proofs.Literals — values written and read again.

The text of a value is one literal (`Value.literal`): numbers and
constants are bare, everything else is quoted, and dates are quoted in
their ISO form. Read as a token, the text is that literal (`reads_value`),
and the field the value came from accepts it (`coerce_literal`).

It accepts it as the same value, with one exception (`Value.Reread`). A
date field may have a format of its own, which goes first, and the ISO
form of a date may happen to fit it and mean another date in it.
-/
import FilterQuery.Proofs.Dates
import FilterQuery.Proofs.Names
import FilterQuery.Proofs.Written

namespace FilterQuery

/-! ## 1. The literal of a value -/

/-- The ISO form of a date, or of a date with a time. -/
def Value.isoText? : Value → Option String
  | date d => some d.text
  | dateTime dt => some dt.text
  | _ => none

/-- What the text of a value is as a literal. -/
def Value.literal : Value → Literal
  | null => .null
  | boolean b => .boolean b
  | integer n => .number (.ofInt64 n)
  | decimal d => .number d
  | string s => .string s
  | date d => .string d.text
  | dateTime dt => .string dt.text

/-- The kind of the token that is a literal. -/
def Literal.kind : Literal → Token.Kind
  | .null => .null
  | .boolean b => .boolean b
  | .number n => .number n
  | .string s => .string s

theorem isWord_of_kind {t : Token} {literal : Literal} (h : t.kind = literal.kind) :
    Grammar.isWord t = true := by
  unfold Grammar.isWord
  rw [h]
  cases literal <;> rfl

theorem wordNode_of_kind {t : Token} {literal : Literal} (h : t.kind = literal.kind) :
    Grammar.Phrase.wordNode t = .literal literal t.position := by
  unfold Grammar.Phrase.wordNode
  rw [h]
  cases literal <;> rfl

/-! ## 2. Written -/

/-- A text without quotes, backslashes and breaks is quoted as it is. -/
theorem Quoted.quote_of_plain {s : String} (h : ∀ c ∈ s.toList, escape c = [c]) :
    quote s = "'" ++ s ++ "'" := by
  have hflat : ∀ cs : List Char, (∀ c ∈ cs, escape c = [c]) → cs.flatMap escape = cs := by
    intro cs
    induction cs with
    | nil => exact fun _ => rfl
    | cons c cs ih =>
      intro hcs
      rw [List.flatMap_cons, hcs c List.mem_cons_self,
        ih fun d hd => hcs d (List.mem_cons_of_mem _ hd)]
      rfl
  rw [← String.toList_inj, quote, hflat s.toList h]
  simp

theorem Quoted.escape_of_isDigit {c : Char} (h : c.isDigit = true) : escape c = [c] := by
  unfold escape
  split <;> first | rfl | exact absurd h (by decide)

theorem Date.plain_chars (d : Date) : ∀ c ∈ d.chars, Quoted.escape c = [c] := by
  intro c hc
  have hdigits : ∀ {width n : Nat}, c ∈ paddedDigits width n → Quoted.escape c = [c] :=
    fun h => Quoted.escape_of_isDigit (isDigit_of_mem_paddedDigits h)
  unfold Date.chars Date.yearText at hc
  simp only [List.mem_append, List.mem_cons] at hc
  rcases hc with (hc | rfl | hc) | rfl | hc
  · split at hc
    · exact hdigits hc
    · rcases List.mem_cons.mp hc with rfl | hc
      · split <;> rfl
      · exact hdigits hc
  · rfl
  · exact hdigits hc
  · rfl
  · exact hdigits hc

theorem TimeOfDay.plain_chars (t : TimeOfDay) : ∀ c ∈ t.chars, Quoted.escape c = [c] := by
  intro c hc
  have hdigits : ∀ {width n : Nat}, c ∈ paddedDigits width n → Quoted.escape c = [c] :=
    fun h => Quoted.escape_of_isDigit (isDigit_of_mem_paddedDigits h)
  have hfraction : c ∈ t.fraction → Quoted.escape c = [c] := by
    intro h
    unfold TimeOfDay.fraction at h
    split at h
    · exact absurd h List.not_mem_nil
    · split at h
      · rcases List.mem_cons.mp h with rfl | h
        · rfl
        · exact hdigits h
      · split at h
        · rcases List.mem_cons.mp h with rfl | h
          · rfl
          · exact hdigits h
        · rcases List.mem_cons.mp h with rfl | h
          · rfl
          · exact hdigits h
  unfold TimeOfDay.chars at hc
  simp only [List.mem_append, List.mem_cons] at hc
  rcases hc with ((hc | rfl | hc) | rfl | hc) | hc
  · exact hdigits hc
  · rfl
  · exact hdigits hc
  · rfl
  · exact hdigits hc
  · exact hfraction hc

theorem Value.text_date (d : Date) : (Value.date d).text = Quoted.quote d.text := by
  rw [Quoted.quote_of_plain]
  · rfl
  · rw [Date.text, String.toList_ofList]
    exact d.plain_chars

theorem Value.text_dateTime (dt : DateTime) :
    (Value.dateTime dt).text = Quoted.quote dt.text := by
  rw [Quoted.quote_of_plain]
  · rfl
  · rw [DateTime.text, String.toList_ofList]
    intro c hc
    rcases List.mem_append.mp hc with hc | hc
    · exact dt.date.plain_chars c hc
    · rcases List.mem_cons.mp hc with rfl | hc
      · rfl
      · exact dt.time.plain_chars c hc

/-- The text of a value is read as its literal. -/
theorem reads_value (v : Value) :
    Reads v.text.toList fun ts => ∃ t, ts = [t] ∧ t.kind = v.literal.kind := by
  cases v with
  | null => exact reads_word (w := "null") (by decide)
  | boolean b =>
    cases b with
    | true => exact reads_word (w := "true") (by decide)
    | false => exact reads_word (w := "false") (by decide)
  | integer n =>
    have htext : (Value.integer n).text = (Decimal.ofInt64 n).text :=
      (Decimal.text_ofInt64 n).symm
    rw [htext]
    exact reads_decimal (.ofInt64 n)
  | decimal d => exact reads_decimal d
  | string s => exact reads_quote s
  | date d =>
    rw [Value.text_date]
    exact reads_quote d.text
  | dateTime dt =>
    rw [Value.text_dateTime]
    exact reads_quote dt.text

/-! ## 3. Read again -/

/-- What a value may be read as again in a field: itself, or, if its ISO form
fits a format of the field's own, what it means in that format. -/
inductive Value.Reread (field : Field) : Value → Value → Prop
  | same (v : Value) : Reread field v v
  | formatted {v : Value} {format text : String} {m : Moment}
      (type : field.type = .date (some format)) (iso : v.isoText? = some text)
      (fits : Moment.ofFormat? format text.toList = some m) : Reread field v (.ofMoment m)

/-- A moment is read again from its ISO form, unless a format goes first. -/
theorem ofText?_iso {field : Field} {format : Option String} {v : Value} {text : String}
    {m : Moment} (htype : field.type = .date format) (htext : v.isoText? = some text)
    (hiso : Moment.ofIso? text.toList = some m) (hv : v = .ofMoment m) :
    ∃ n, Moment.ofText? format text = some n ∧ Value.Reread field v (.ofMoment n) := by
  cases format with
  | none => exact ⟨m, hiso, hv ▸ .same _⟩
  | some format =>
    cases hformat : Moment.ofFormat? format text.toList with
    | none =>
      refine ⟨m, ?_, hv ▸ .same _⟩
      rw [Moment.ofText?, hformat]
      exact hiso
    | some n =>
      refine ⟨n, ?_, .formatted htype htext hformat⟩
      rw [Moment.ofText?, hformat]
      rfl

/-- A field accepts just the literals that its type has a value for, null and patterns
apart. -/
theorem Field.coerce_iff {field : Field} {op : CompareOp} {literal : Literal} {v : Value}
    (hnull : literal ≠ .null) (hlike : op = .like → field.type = .string) :
    field.coerce op literal = .ok v ↔ field.type.value? literal = some v := by
  have hpattern : ¬(op = .like ∧ field.type ≠ .string) := fun hp => hp.2 (hlike hp.1)
  simp only [coerce, if_neg hnull, if_neg hpattern]
  split
  · next w hw => rw [hw, Except.ok.injEq, Option.some.injEq]
  · next hnone =>
    rw [hnone]
    exact ⟨by rintro ⟨⟩, by rintro ⟨⟩⟩

/-- An operand that a field accepts is accepted again as a literal. -/
theorem Field.coerce_literal {field : Field} {op : CompareOp} {v : Value}
    (haccepts : field.Accepts op v) (hlike : op = .like → field.type = .string) :
    ∃ w, field.coerce op v.literal = .ok w ∧ v.Reread field w := by
  cases haccepts with
  | null hnullable hop =>
    refine ⟨.null, ?_, .same _⟩
    have haccept : op.acceptsNull = true := CompareOp.acceptsNull_iff.mpr hop
    simp [coerce, Value.literal, haccept, hnullable]
  | held hheld =>
    obtain ⟨type, nullable⟩ := field
    dsimp only at hheld hlike
    cases hheld with
    | string s =>
      exact ⟨_, (Field.coerce_iff (by simp [Value.literal]) hlike).mpr rfl, .same _⟩
    | integer n =>
      refine ⟨_, (Field.coerce_iff (by simp [Value.literal]) hlike).mpr ?_, .same _⟩
      exact congrArg some (Value.ofDecimal_ofInt64 n)
    | decimal hnormal =>
      refine ⟨_, (Field.coerce_iff (by simp [Value.literal]) hlike).mpr ?_, .same _⟩
      exact congrArg some (Value.ofDecimal_of_isNormal hnormal)
    | boolean b =>
      exact ⟨_, (Field.coerce_iff (by simp [Value.literal]) hlike).mpr rfl, .same _⟩
    | date format d =>
      have hiso : Moment.ofIso? d.text.toList = some (.date d) := by
        rw [Date.text, String.toList_ofList]
        exact Moment.ofIso?_date d
      obtain ⟨n, hn, hreread⟩ :=
        @ofText?_iso ⟨.date format, nullable⟩ _ (.date d) _ _ rfl rfl hiso rfl
      refine ⟨_, (Field.coerce_iff (by simp [Value.literal]) hlike).mpr ?_, hreread⟩
      exact congrArg (Option.map Value.ofMoment) hn
    | dateTime format dt =>
      have hiso : Moment.ofIso? dt.text.toList = some (.dateTime dt) := by
        rw [DateTime.text, String.toList_ofList]
        exact Moment.ofIso?_dateTime dt
      obtain ⟨n, hn, hreread⟩ :=
        @ofText?_iso ⟨.date format, nullable⟩ _ (.dateTime dt) _ _ rfl rfl hiso rfl
      refine ⟨_, (Field.coerce_iff (by simp [Value.literal]) hlike).mpr ?_, hreread⟩
      exact congrArg (Option.map Value.ofMoment) hn
    | variant hmem =>
      refine ⟨_, (Field.coerce_iff (by simp [Value.literal]) hlike).mpr ?_, .same _⟩
      exact if_pos (List.contains_iff_mem.mpr hmem)

end FilterQuery
