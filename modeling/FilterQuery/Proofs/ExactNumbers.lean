/-
FilterQuery.Proofs.ExactNumbers — numbers are bound exactly, and in one way only.

A numeral denotes a number, which is a matter of its digits alone
(`Numeral.toRat`). A value represents a number if it denotes just that, is a
whole number where the number is one that fits 64 bits, and has no zero at the
end of its fraction otherwise (`Value.Represents`). There is one such value for
each number at most, so two values that represent numbers look the same exactly
if the numbers are the same (`Value.Represents.same_iff`).

A numeral within bounds is bound to the value that represents its number,
wherever it stands in a query as an operand of a number field, bare or in
quotes. Three steps lead there, and none of them rounds:

* all digits of the fraction are taken, so the decimal denotes the number of
  the numeral (`Numeral.Fits.ofNumeral?`);
* the value of a decimal denotes the same number as the decimal, whether zeros
  are stripped or the scale is dropped (`Value.represents_ofDecimal`);
* the text of an operand is read as one literal, wherever it stands
  (`Numeral.IsOperand.operand_eq`).

## Which operand has which value

A predicate forgets the text it comes from. The relation `Predicate.Follows`
puts it beside the sentence of the text, operand by operand.
-/
import FilterQuery.Proofs.HandOff
import FilterQuery.Proofs.QuotedNumbers

namespace FilterQuery

/-! ## 1. The number of a numeral -/

namespace Numeral

/-- The number that a numeral denotes. -/
def toRat (n : Numeral) : Rat :=
  (if n.negative then -1 else 1) *
    (natOfDigits n.whole + natOfDigits n.fraction / (pow10 n.fraction.length : Nat))

/-- The number is that of the digits without the point, divided for those behind it. -/
theorem toRat_eq_div (n : Numeral) : n.toRat = (if n.negative then -1 else 1) *
    ((natOfDigits (n.whole ++ n.fraction) : Rat) / (pow10 n.fraction.length : Nat)) := by
  have hunit : ((pow10 n.fraction.length : Nat) : Rat) ≠ 0 :=
    Nat.cast_ne_zero.mpr (pow10_pos _).ne'
  rw [toRat, natOfDigits_append, Nat.cast_add, Nat.cast_mul, add_div,
    mul_div_cancel_right₀ _ hunit]

/-- Whether a numeral is within bounds: its fraction has at most 28 digits, and its digits
without the point are a number of at most 96 bits. -/
structure Fits (n : Numeral) : Prop where
  isWritten : n.IsWritten
  length_le : n.fraction.length ≤ 28
  digits_le : natOfDigits (n.whole ++ n.fraction) ≤ 2 ^ 96 - 1

/-- A numeral within bounds is taken as it is. -/
theorem Fits.ofNumeral? {n : Numeral} (h : n.Fits) :
    ∃ d, Decimal.ofNumeral? n = some d ∧ d.toRat = n.toRat := by
  have hdigits := natOfDigits_append n.whole n.fraction
  have hle : natOfDigits (n.whole ++ n.fraction) ≤ maxCoefficient := h.digits_le
  have hwhole : natOfDigits n.whole ≤ maxCoefficient := by
    refine Nat.le_trans ?_ hle
    rw [hdigits]
    exact Nat.le_trans (Nat.le_mul_of_pos_right _ (pow10_pos _)) (Nat.le_add_right _ _)
  have htake := Decimal.takeFraction_eq n.fraction _ 0 ((Nat.zero_add _).symm ▸ h.length_le)
    (hdigits ▸ hle)
  rw [← hdigits, Nat.zero_add] at htake
  have hbound : (if n.negative then -(natOfDigits (n.whole ++ n.fraction) : Int)
      else natOfDigits (n.whole ++ n.fraction)).natAbs ≤ maxCoefficient := by
    split
    · rwa [Int.natAbs_neg, Int.natAbs_natCast]
    · rwa [Int.natAbs_natCast]
  refine ⟨⟨_, _, hbound, h.length_le⟩, ?_, ?_⟩
  · unfold Decimal.ofNumeral?
    simp only [hwhole, if_true, htake]
    exact dif_pos ⟨hbound, h.length_le⟩
  · rw [toRat_eq_div, Decimal.toRat]
    dsimp only
    split
    · rw [Int.cast_neg, Int.cast_natCast, neg_div, neg_one_mul]
    · rw [Int.cast_natCast, one_mul]

end Numeral

/-! ## 2. Values that represent numbers -/

namespace Decimal

/-- A decimal denotes a whole number exactly if it is known to be one. -/
theorem toRat_eq_intCast {d : Decimal} {i : Int} : d.toRat = i ↔ d.whole? = some i := by
  have hunit : ((pow10 d.scale : Nat) : Rat) ≠ 0 := Nat.cast_ne_zero.mpr (pow10_pos _).ne'
  rw [whole?_eq_some, toRat, div_eq_iff hunit]
  exact_mod_cast Iff.rfl

theorem toRat_ofInt64 (n : Int64) : (ofInt64 n).toRat = n.toInt :=
  toRat_eq_intCast.mpr (whole?_eq_some.mpr (mul_one _).symm)

/-- The normal form denotes the same number. -/
theorem toRat_normalize (d : Decimal) : d.normalize.toRat = d.toRat :=
  sameNumber_iff.mp (beq_iff_eq.mpr (strip_eq d.coefficient d.scale).symm)

end Decimal

namespace Value

/-- Whether a value denotes a number in the one way that is asked for: whole numbers of 64
bits are integers, and nothing else is; decimals have no zero at the end of their fraction. -/
structure Represents (v : Value) (q : Rat) : Prop where
  denotes : ∃ d, v.toDecimal? = some d ∧ d.toRat = q
  integer_iff : (∃ k, v = .integer k) ↔ ∃ i : Int, q = i ∧ -2 ^ 63 ≤ i ∧ i ≤ 2 ^ 63 - 1
  scale_least : ∀ d, v = .decimal d → d.scale = 0 ∨ d.coefficient % 10 ≠ 0

/-- The value of a decimal represents its number. -/
theorem represents_ofDecimal (d : Decimal) : (ofDecimal d).Represents d.toRat := by
  -- a decimal is kept where the number is too large and where it is not whole
  have hnormalize (hnone : ¬∃ i : Int, d.toRat = i ∧ -2 ^ 63 ≤ i ∧ i ≤ 2 ^ 63 - 1) :
      (decimal d.normalize).Represents d.toRat := by
    refine ⟨⟨d.normalize, rfl, d.toRat_normalize⟩, ⟨?_, fun h => absurd h hnone⟩, ?_⟩
    · rintro ⟨k, ⟨⟩⟩
    · rintro _ ⟨⟩
      exact Decimal.strip_least d.coefficient d.scale
  unfold ofDecimal
  split
  · next i hwhole =>
    have hi := Decimal.toRat_eq_intCast.mpr hwhole
    split
    · next hrange =>
      refine ⟨⟨_, rfl, ?_⟩, ⟨fun _ => ⟨i, hi, hrange⟩, fun _ => ⟨_, rfl⟩⟩, by rintro _ ⟨⟩⟩
      rw [Decimal.toRat_ofInt64, Int64.toInt_ofInt_of_le (by omega) (by omega), hi]
    · next hrange =>
      refine hnormalize ?_
      rintro ⟨j, hj, hfits⟩
      obtain rfl : i = j := by exact_mod_cast hi.symm.trans hj
      exact hrange hfits
  · next hwhole =>
    refine hnormalize ?_
    rintro ⟨j, hj, _⟩
    rw [Decimal.toRat_eq_intCast.mp hj] at hwhole
    cases hwhole

/-- Only integers and decimals have a number. -/
theorem toDecimal?_cases {v : Value} {d : Decimal} (h : v.toDecimal? = some d) :
    (∃ k, v = .integer k ∧ d = .ofInt64 k) ∨ v = .decimal d := by
  cases v with
  | integer k =>
    cases h
    exact .inl ⟨k, rfl, rfl⟩
  | decimal d' =>
    cases h
    exact .inr rfl
  | _ => cases h

theorem text_of_toDecimal? {v : Value} {d : Decimal} (h : v.toDecimal? = some d) :
    v.text = d.text := by
  rcases toDecimal?_cases h with ⟨k, rfl, rfl⟩ | rfl
  · exact (Decimal.text_ofInt64 k).symm
  · rfl

namespace Represents

variable {v w : Value} {q r : Rat}

/-- No number is represented by two values. -/
theorem unique (hv : v.Represents q) (hw : w.Represents q) : v = w := by
  obtain ⟨d, hd, hdq⟩ := hv.denotes
  obtain ⟨e, he, heq⟩ := hw.denotes
  rcases toDecimal?_cases hd with ⟨k, rfl, rfl⟩ | rfl
  · obtain ⟨l, rfl⟩ := hw.integer_iff.mpr (hv.integer_iff.mp ⟨k, rfl⟩)
    cases he
    rw [Decimal.toRat_ofInt64] at hdq heq
    have htoInt : k.toInt = l.toInt := by exact_mod_cast hdq.trans heq.symm
    rw [Int64.toInt_inj.mp htoInt]
  · rcases toDecimal?_cases he with ⟨l, rfl, rfl⟩ | rfl
    · obtain ⟨k, hk⟩ := hv.integer_iff.mpr (hw.integer_iff.mp ⟨l, rfl⟩)
      cases hk
    · rw [Decimal.eq_of_toRat_eq (hv.scale_least d rfl) (hw.scale_least e rfl)
        (hdq.trans heq.symm)]

/-- Values that represent numbers look the same exactly if the numbers are the same. -/
theorem same_iff (hv : v.Represents q) (hw : w.Represents r) :
    v.typeName = w.typeName ∧ v.text = w.text ↔ q = r := by
  constructor
  · -- the text alone tells the number, whatever the type is
    rintro ⟨_, htext⟩
    obtain ⟨d, hd, rfl⟩ := hv.denotes
    obtain ⟨e, he, rfl⟩ := hw.denotes
    rw [text_of_toDecimal? hd, text_of_toDecimal? he] at htext
    rw [Decimal.text_injective htext]
  · rintro rfl
    rw [hv.unique hw]
    exact ⟨rfl, rfl⟩

end Represents

end Value

/-! ## 3. Numerals as operands -/

/-- Whether a text is a numeral as it may stand in a query: bare, or in quotes of either
sort. -/
inductive Numeral.IsOperand (n : Numeral) : String → Prop
  | bare : IsOperand n (String.ofList n.source)
  | quoted {q : Char} (quote : q = '"' ∨ q = '\'') :
      IsOperand n (String.ofList (q :: n.source ++ [q]))

/-- Where there are neither quotes nor backslashes, a literal denotes what is written. -/
theorem Lexicon.body_of_plain {q : Char} {cs : List Char} (h : ∀ c ∈ cs, c ≠ q ∧ c ≠ '\\')
    (p : Position) : Body q p cs cs [] := by
  induction cs generalizing p with
  | nil => exact .nil
  | cons c cs ih =>
    obtain ⟨hc, hcs⟩ := List.forall_mem_cons.mp h
    exact .plain hc.1 hc.2 (ih hcs _)

namespace Numeral

theorem IsWritten.body {n : Numeral} (hn : n.IsWritten) {q : Char} (hq : q = '"' ∨ q = '\'')
    (p : Position) : Lexicon.Body q p n.source n.source [] := by
  refine Lexicon.body_of_plain (fun c hc => ?_) p
  rcases hn.cases_of_mem hc with hdigit | rfl | rfl
  · refine ⟨?_, ?_⟩
    · rintro rfl
      rcases hq with rfl | rfl <;> exact absurd hdigit (by decide)
    · rintro rfl
      exact absurd hdigit (by decide)
  · rcases hq with rfl | rfl <;> decide
  · rcases hq with rfl | rfl <;> decide

variable {n : Numeral} {d : Decimal}

/-- The text of an operand is read as one literal, which a number field takes for the
decimal of the numeral. -/
theorem IsOperand.literal (hn : n.IsWritten) (hd : Decimal.ofNumeral? n = some d)
    {lexeme : String} (h : n.IsOperand lexeme) (p : Position) :
    ∃ literal : Literal, readFrom p lexeme.toList = ([⟨literal.kind, lexeme, p⟩], []) ∧
      ∀ {field : Field} {op : CompareOp}, field.type = .number → op ≠ .like →
        field.coerce op literal = .ok (.ofDecimal d) := by
  have hvalue : Decimal.ofText? (String.ofList n.source) = some d :=
    Decimal.ofText?_eq_some.mpr ⟨n, hn, String.toList_ofList, hd⟩
  cases h with
  | bare => exact ⟨.number d, Decimal.readFrom_of_ofText? hvalue p,
      fun htype hop => Field.coerce_number htype hop d⟩
  | @quoted q quote =>
    refine ⟨.string (String.ofList n.source), ?_,
      fun htype hop => (Field.coerce_string_iff htype hop).mpr ⟨d, hvalue, rfl⟩⟩
    rw [String.toList_ofList]
    exact (Lexicon.Word.literal quote (hn.body quote _)).readFrom

/-- Wherever it stands, an operand is bound to the value of the decimal. -/
theorem IsOperand.operand_eq (hn : n.IsWritten) (hd : Decimal.ofNumeral? n = some d)
    {text : String} (herrors : (Lexed.ofText text).errors = []) {t : Token}
    (ht : t ∈ (Lexed.ofText text).tokens) (h : n.IsOperand t.lexeme) (name : String)
    {field : Field} {op : CompareOp} (htype : field.type = .number) (hop : op ≠ .like) :
    Binding.operand name field op (Grammar.Phrase.word t).node = ⟨some (.ofDecimal d), []⟩ := by
  obtain ⟨literal, hread, hcoerce⟩ := h.literal hn hd .start
  have hkind : t.kind = literal.kind := by
    have halone := @readFrom_lexeme .start text.toList herrors t ht .start
    rw [hread] at halone
    exact (congrArg Token.kind (List.cons.inj (congrArg Prod.fst halone)).1).symm
  rw [Grammar.Phrase.node, wordNode_of_kind hkind, Binding.operand, hcoerce htype hop]

/-- Wherever it stands, a numeral within bounds is bound to the value of its number. -/
theorem Fits.bound (hn : n.Fits) : ∃ v : Value, v.Represents n.toRat ∧
    ∀ (text : String) (t : Token), (Lexed.ofText text).errors = [] →
      t ∈ (Lexed.ofText text).tokens → n.IsOperand t.lexeme →
      ∀ (name : String) (field : Field) (op : CompareOp), field.type = .number → op ≠ .like →
        Binding.operand name field op (Grammar.Phrase.word t).node = ⟨some v, []⟩ := by
  obtain ⟨d, hd, hnumber⟩ := hn.ofNumeral?
  refine ⟨.ofDecimal d, hnumber ▸ Value.represents_ofDecimal d, ?_⟩
  intro text t herrors ht hoperand name field op htype hop
  exact hoperand.operand_eq hn.isWritten hd herrors ht name htype hop

end Numeral

/-! ## 4. Predicates beside their sentences -/

open Grammar

/-- Whether a predicate goes with a tree: the same operators and fields, and in each
comparison operands that stand in a relation to the tokens behind the field. -/
inductive Predicate.Follows (R : String → CompareOp → Token → Value → Prop) :
    Phrase → Predicate → Prop
  | comparison {head subject : Token} {name : String} {op : CompareOp} {words : List Token}
      {values : List Value} (head_kind : head.kind = .operator (.compare op))
      (subject_kind : subject.kind = .identifier name)
      (operands : List.Forall₂ (R name op) words values) :
      Follows R (.call head (.word subject :: words.map .word)) (.comparison name op values)
  | combinator {head : Token} {op : LogicalOp} {args : List Phrase} {children : List Predicate}
      (head_kind : head.kind = .operator (.combine op))
      (children_follow : List.Forall₂ (Predicate.Follows R) args children) :
      Follows R (.call head args) (.combinator op children)

/-- What the tree of a sentence binds to goes with the tree, in every relation that holds
between the tokens of the tree and what they are bound to. -/
theorem follows_of_bind {schema : Schema} {W : Token → Prop}
    {R : String → CompareOp → Token → Value → Prop}
    (hR : ∀ name op t v field, W t → schema.get? name = some field →
      (Binding.operand name field op (Phrase.word t).node).value = some v → R name op t v)
    {e : Phrase} {p : Predicate} (hall : e.All (fun _ => True) W)
    (h : (Binding.node schema e.node).predicate = some p) : p.Follows R e := by
  refine Phrase.bind_induction (P := fun e p => e.All (fun _ => True) W → p.Follows R e)
    ?_ ?_ h hall
  · intro head op args children hhead hchildren hall
    cases hall with
    | call _ hargs =>
      exact .combinator hhead (forall₂_of_mem hchildren fun a ha _ hfollows =>
        hfollows (hargs a ha))
  · intro head subject words op name field values hhead hsubject hget hoperands hall
    cases hall with
    | call _ hargs =>
      refine .comparison hhead hsubject (forall₂_of_mem hoperands fun t ht v hv => ?_)
      cases hargs (.word t) (List.mem_cons_of_mem _ (List.mem_map_of_mem ht)) with
      | word hW => exact hR name op t v field hW hget hv

/-! ## 5. Whole queries -/

/-- **Numbers are bound exactly, and in one way only.**

* For every numeral within bounds there is a value that represents its number. The numeral
  is bound to it without an error wherever it stands in a query as an operand of a number
  field, bare or in quotes, whatever the operator is, patterns apart.
* So in the predicate of a query, all operands that are written as numerals within bounds
  and belong to number fields represent their numbers.
* Two such operands have the same type and the same text exactly if they represent the same
  number. -/
theorem Outcome.ofText_numbers (schema : Schema) :
    (∀ n : Numeral, n.Fits → ∃ v : Value, v.Represents n.toRat ∧
      ∀ (text : String) (t : Token), (Lexed.ofText text).errors = [] →
        t ∈ (Lexed.ofText text).tokens → n.IsOperand t.lexeme →
        ∀ (name : String) (field : Field) (op : CompareOp), field.type = .number → op ≠ .like →
          Binding.operand name field op (Phrase.word t).node = ⟨some v, []⟩) ∧
    (∀ (limits : Limits) (text : String) (p : Predicate),
      (Outcome.ofText schema limits text).predicate = some p →
      ∃ e, Expression (Lexed.ofText text).tokens e ∧ p.Follows (fun name _ t v =>
        ∀ (field : Field) (n : Numeral), schema.get? name = some field → field.type = .number →
          n.Fits → n.IsOperand t.lexeme → v.Represents n.toRat) e) ∧
    ∀ (v w : Value) (q r : Rat), v.Represents q → w.Represents r →
      (v.typeName = w.typeName ∧ v.text = w.text ↔ q = r) := by
  refine ⟨fun n hn => hn.bound, ?_, fun v w q r hv hw => hv.same_iff hw⟩
  intro limits text p h
  have herrors := Outcome.lexed_of_predicate h
  obtain ⟨e, he, _, hbound⟩ := Outcome.sentence_of_predicate h
  have hall := all_of_expression he fun t (ht : t ∈ (Lexed.ofText text).tokens) => ht
  refine ⟨e, he, follows_of_bind ?_ (hall.mono (fun _ _ => trivial) fun t ht => ht.1) hbound⟩
  intro name op t v field ht hget hv field' n hget' htype hn hoperand
  obtain rfl : field = field' := Option.some.inj (hget.symm.trans hget')
  have hlike : op ≠ .like := by
    obtain ⟨literal, _, _, hcoerce⟩ := Binding.operand_eq_some.mp hv
    intro hop
    have hstring := ((Field.accepts_of_coerce hcoerce).2 hop).1
    rw [htype] at hstring
    cases hstring
  obtain ⟨w, hw, hoperands⟩ := hn.bound
  rw [hoperands text t herrors ht hoperand name field op htype hlike] at hv
  exact Option.some.inj hv ▸ hw

/-- `1.50` and `'01.5'` are bound to one value. The least whole number of 64 bits is an
integer, and one more than the greatest is a decimal. -/
theorem Outcome.ofText_numbers_of_bounds :
    let schema := Schema.empty.insert "x" ⟨.number, false⟩
    let text := "in(x, 1.50, '01.5', -9223372036854775808, 9223372036854775808)"
    let half : Value := .decimal ⟨15, 1, by decide, by decide⟩
    let bare : Numeral := ⟨false, "1".toList, "50".toList⟩
    let quoted : Numeral := ⟨false, "01".toList, "5".toList⟩
    let p := Predicate.comparison "x" .oneOf [half, half, .integer (-9223372036854775808),
      .decimal ⟨9223372036854775808, 0, by decide, by decide⟩]
    bare.Fits ∧ quoted.Fits ∧ (Outcome.ofText schema {} text).predicate = some p ∧
      half.Represents bare.toRat ∧ half.Represents quoted.toRat ∧ bare.toRat = quoted.toRat := by
  intro schema text half bare quoted p
  let token (kind : Token.Kind) (lexeme : String) (i : Nat) : Token := ⟨kind, lexeme, ⟨i, 1, i + 1⟩⟩
  let head := token (.operator (.compare .oneOf)) "in" 0
  let field := token (.identifier "x") "x" 3
  let first := token (.number ⟨150, 2, by decide, by decide⟩) "1.50" 6
  let second := token (.string "01.5") "'01.5'" 12
  let third := token (.number ⟨-9223372036854775808, 0, by decide, by decide⟩)
    "-9223372036854775808" 20
  let fourth := token (.number ⟨9223372036854775808, 0, by decide, by decide⟩)
    "9223372036854775808" 42
  have htokens : (Lexed.ofText text).tokens = [head, token .openParen "(" 2, field,
      token .comma "," 4, first, token .comma "," 10, second, token .comma "," 18, third,
      token .comma "," 40, fourth, token .closeParen ")" 61] := by decide +kernel
  have herrors : (Lexed.ofText text).errors = [] := by decide +kernel
  have hargs : Arguments [field, token .comma "," 4, first, token .comma "," 10, second,
      token .comma "," 18, third, token .comma "," 40, fourth]
      [.word field, .word first, .word second, .word third, .word fourth] :=
    @Arguments.more [field] _ _ _ _ (.word rfl) rfl <|
      @Arguments.more [first] _ _ _ _ (.word rfl) rfl <|
        @Arguments.more [second] _ _ _ _ (.word rfl) rfl <|
          @Arguments.more [third] [fourth] _ _ _ (.word rfl) rfl (.last (.word rfl))
  have hsentence : Expression (Lexed.ofText text).tokens
      (.call head [.word field, .word first, .word second, .word third, .word fourth]) := by
    rw [htokens]
    exact @Expression.applied _ (token .openParen "(" 2) (token .closeParen ")" 61) _ _ rfl rfl
      hargs rfl
  have hbare : bare.Fits := ⟨⟨by decide, List.all_eq_true.mp (by decide),
    List.all_eq_true.mp (by decide)⟩, by decide, by decide +kernel⟩
  have hquoted : quoted.Fits := ⟨⟨by decide, List.all_eq_true.mp (by decide),
    List.all_eq_true.mp (by decide)⟩, by decide, by decide +kernel⟩
  -- what a numeral is bound to is computed from its token
  have hrepresents : ∀ (n : Numeral) (t : Token), n.Fits → t ∈ (Lexed.ofText text).tokens →
      n.IsOperand t.lexeme → Binding.operand "x" ⟨.number, false⟩ .oneOf (Phrase.word t).node =
        ⟨some half, []⟩ → half.Represents n.toRat := by
    intro n t hn ht hoperand hhalf
    obtain ⟨v, hv, hbound⟩ := (Outcome.ofText_numbers schema).1 n hn
    have hsame := hbound text t herrors ht hoperand "x" ⟨.number, false⟩ .oneOf rfl (by decide)
    rw [hhalf] at hsame
    exact Option.some.inj (congrArg BoundOperand.value hsame) ▸ hv
  have hfirst : half.Represents bare.toRat :=
    hrepresents bare first hbare (by rw [htokens]; simp) .bare rfl
  have hsecond : half.Represents quoted.toRat :=
    hrepresents quoted second hquoted (by rw [htokens]; simp) (.quoted (.inr rfl)) rfl
  refine ⟨hbare, hquoted, ?_, hfirst, hsecond, ?_⟩
  · rw [Outcome.ofText_of_sentence (p := p) (by decide) herrors hsentence (by decide) rfl rfl]
  · exact ((Outcome.ofText_numbers schema).2.2 half half _ _ hfirst hsecond).mp ⟨rfl, rfl⟩

end FilterQuery
