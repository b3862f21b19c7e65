/-
FilterQuery.Proofs.HandOff — the JSON of a predicate tells which it is.

A reader of the JSON sees no types and compares numbers by what they
denote (`Json.Same`). Still no two predicates of one schema look the same
to it. That is not so of predicates in general: what is written of the
operands depends on the operator alone, decimals may be numbers or
strings, and dates and variants are strings as well. It takes three facts
about the predicates that are handed out:

* an operator takes a fixed number of operands, so none is left out;
* the operands of a comparison belong to one field, so of the things that
  are written as strings only one kind comes into question;
* a decimal is only written as a number if the number leads back to it, and
  decimals are in normal form.

So the proof goes from values of one type (`Value.eq_of_same`) to operands
of one field, and from there along the tree.
-/
import FilterQuery.Proofs.Dates
import FilterQuery.Proofs.Rounding
import FilterQuery.Proofs.Typing

namespace FilterQuery

/-! ## 1. What a reader can tell apart -/

/-- Two JSON values that are the same to a reader: numbers are compared by
what they denote, whole numbers apart from others. -/
inductive Json.Same : Json → Json → Prop
  | null : Same .null .null
  | boolean (b : Bool) : Same (.boolean b) (.boolean b)
  | integer (n : Int) : Same (.integer n) (.integer n)
  | real {x y : Binary64} (number : x.toRat = y.toRat) : Same (.real x) (.real y)
  | string (s : String) : Same (.string s) (.string s)
  | array {js ks : List Json} (items : List.Forall₂ Same js ks) : Same (.array js) (.array ks)
  | object {ms ns : List (String × Json)} (names : ms.map Prod.fst = ns.map Prod.fst)
      (values : List.Forall₂ Same (ms.map Prod.snd) (ns.map Prod.snd)) :
      Same (.object ms) (.object ns)

namespace Json

mutual

/-- Every value is the same as itself. -/
theorem Same.refl : ∀ j : Json, Same j j
  | .null => .null
  | .boolean b => .boolean b
  | .integer n => .integer n
  | .real _ => .real rfl
  | .string s => .string s
  | .array js => .array (Same.refl_items js)
  | .object ms => .object rfl (Same.refl_values ms)

theorem Same.refl_items : ∀ js : List Json, List.Forall₂ Same js js
  | [] => .nil
  | j :: js => .cons (Same.refl j) (Same.refl_items js)

theorem Same.refl_values : ∀ ms : List (String × Json),
    List.Forall₂ Same (ms.map Prod.snd) (ms.map Prod.snd)
  | [] => .nil
  | (_, j) :: ms => .cons (Same.refl j) (Same.refl_values ms)

end

/-- Objects are compared member by member. -/
theorem Same.of_cons {k l : String} {j i : Json} {ms ns : List (String × Json)}
    (h : Same (.object ((k, j) :: ms)) (.object ((l, i) :: ns))) :
    k = l ∧ Same j i ∧ Same (.object ms) (.object ns) := by
  cases h with
  | object names values =>
    cases values with
    | cons value values =>
      obtain ⟨hname, hnames⟩ := List.cons.inj names
      exact ⟨hname, value, .object hnames values⟩

theorem Same.string_inj {s t : String} (h : Same (.string s) (.string t)) : s = t := by
  cases h
  rfl

theorem Same.integer_inj {m n : Int} (h : Same (.integer m) (.integer n)) : m = n := by
  cases h
  rfl

end Json

/-! ## 2. Decimals -/

namespace Decimal

theorem sameNumber_iff {a b : Decimal} : a.sameNumber b = true ↔ a.toRat = b.toRat := by
  have hpos : ∀ d : Decimal, ((pow10 d.scale : Nat) : Rat) ≠ 0 := fun d =>
    Nat.cast_ne_zero.mpr (pow10_pos d.scale).ne'
  unfold sameNumber toRat
  rw [beq_iff_eq, div_eq_div_iff (hpos a) (hpos b)]
  exact_mod_cast Iff.rfl

/-- Of two decimals that denote one number, the one with no zero at the end has
no greater scale. -/
theorem scale_le_of_sameNumber {a b : Decimal} (hb : b.scale = 0 ∨ b.coefficient % 10 ≠ 0)
    (h : a.coefficient * (pow10 b.scale : Nat) = b.coefficient * (pow10 a.scale : Nat)) :
    b.scale ≤ a.scale := by
  by_contra hlt
  obtain ⟨k, hk⟩ := Nat.exists_eq_add_of_lt (Nat.lt_of_not_le hlt)
  have hpos : (pow10 a.scale : Int) ≠ 0 := Int.natCast_ne_zero.mpr (pow10_pos a.scale).ne'
  have hpow : (pow10 b.scale : Int) = pow10 k * 10 * pow10 a.scale := by
    rw [hk, Nat.add_assoc, Nat.add_comm]
    exact_mod_cast Nat.pow_add 10 (k + 1) a.scale
  rw [hpow, ← mul_assoc] at h
  have hcoefficient : b.coefficient = a.coefficient * (pow10 k * 10) :=
    (mul_right_cancel₀ hpos h).symm
  refine absurd ?_ (hb.resolve_left (by omega))
  rw [hcoefficient, ← mul_assoc, Int.mul_emod_left]

/-- Two decimals with no zeros at the end that denote one number are the same. -/
theorem eq_of_toRat_eq {a b : Decimal} (ha : a.scale = 0 ∨ a.coefficient % 10 ≠ 0)
    (hb : b.scale = 0 ∨ b.coefficient % 10 ≠ 0) (h : a.toRat = b.toRat) : a = b := by
  have hcross : a.coefficient * (pow10 b.scale : Nat) = b.coefficient * (pow10 a.scale : Nat) :=
    beq_iff_eq.mp (sameNumber_iff.mpr h)
  have hscale : a.scale = b.scale :=
    le_antisymm (scale_le_of_sameNumber ha hcross.symm) (scale_le_of_sameNumber hb hcross)
  rw [hscale] at hcross
  have hcoefficient : a.coefficient = b.coefficient :=
    mul_right_cancel₀ (Int.natCast_ne_zero.mpr (pow10_pos b.scale).ne') hcross
  cases a
  cases b
  cases hscale
  cases hcoefficient
  rfl

/-- The binary number a decimal is handed on as leads back to it. -/
theorem of_exactBinary? {d : Decimal} {x : Binary64} (h : d.exactBinary? = some x) :
    x.IsNormal ∧ ∃ back, ofNumeral? x.toNumeral = some back ∧ back.toRat = d.toRat := by
  unfold exactBinary? at h
  split at h
  · next back hback =>
    split at h
    · next hsame =>
      cases h
      exact ⟨d.isNormal_approximate, back, hback, sameNumber_iff.mp hsame⟩
    · cases h
  · cases h

/-- A decimal is read back from its text. -/
theorem text_injective {a b : Decimal} (h : a.text = b.text) : a = b := by
  have hscan : ∀ d : Decimal, Numeral.scan d.toNumeral.source = some (d.toNumeral, []) := by
    intro d
    have h := @Numeral.scan_source_append d.toNumeral [] d.isWritten_toNumeral (by rintro c ⟨⟩)
    rwa [List.append_nil] at h
  have hsource : a.toNumeral.source = b.toNumeral.source := String.ofList_inj.mp h
  have hnumeral : a.toNumeral = b.toNumeral := by
    have hsame := hscan a
    rw [hsource, hscan b] at hsame
    exact (Prod.mk.inj (Option.some.inj hsame)).1.symm
  have hback := ofNumeral?_toNumeral a
  rw [hnumeral, ofNumeral?_toNumeral b] at hback
  exact (Option.some.inj hback).symm

end Decimal

/-! ## 3. Values of one type -/

namespace Value

/-- A decimal is written as a number that leads back to it, or as its text. -/
theorem toJson_decimal_cases (d : Decimal) :
    (∃ x, d.exactBinary? = some x ∧ (decimal d).toJson = .real x) ∨
      (decimal d).toJson = .string d.text := by
  cases hx : d.exactBinary? with
  | some x => exact .inl ⟨x, rfl, by simp only [toJson, hx]⟩
  | none => exact .inr (by simp only [toJson, hx])

theorem decimal_eq_of_same {a b : Decimal} (ha : a.IsNormal) (hb : b.IsNormal)
    (h : (decimal a).toJson.Same (decimal b).toJson) : a = b := by
  rcases toJson_decimal_cases a with ⟨x, hx, hxjson⟩ | hatext
  · rcases toJson_decimal_cases b with ⟨y, hy, hyjson⟩ | hbtext
    · rw [hxjson, hyjson] at h
      cases h with
      | real number =>
        obtain ⟨hxnormal, back, hback, hbacka⟩ := Decimal.of_exactBinary? hx
        obtain ⟨hynormal, back', hback', hbackb⟩ := Decimal.of_exactBinary? hy
        obtain rfl : x = y := hxnormal.eq_of_toRat_eq hynormal number
        obtain rfl : back = back' := Option.some.inj (hback.symm.trans hback')
        exact Decimal.eq_of_toRat_eq ha.scale_least hb.scale_least (hbacka.symm.trans hbackb)
    · rw [hxjson, hbtext] at h
      cases h
  · rcases toJson_decimal_cases b with ⟨y, hy, hyjson⟩ | hbtext
    · rw [hatext, hyjson] at h
      cases h
    · rw [hatext, hbtext] at h
      exact Decimal.text_injective h.string_inj

/-- No whole number is written like a decimal. -/
theorem not_same_integer_decimal (n : Int64) (d : Decimal) :
    ¬(integer n).toJson.Same (decimal d).toJson ∧ ¬(decimal d).toJson.Same (integer n).toJson := by
  rcases toJson_decimal_cases d with ⟨x, _, hjson⟩ | hjson
  · rw [hjson]
    exact ⟨by rintro ⟨⟩, by rintro ⟨⟩⟩
  · rw [hjson]
    exact ⟨by rintro ⟨⟩, by rintro ⟨⟩⟩

/-- The ISO form tells a day, and a day with a time from one without. -/
theorem ofMoment_eq_of_same {m m' : Moment} (h : (ofMoment m).toJson.Same (ofMoment m').toJson) :
    m = m' := by
  have hread : ∀ m : Moment, ∃ cs, (ofMoment m).toJson = .string (String.ofList cs) ∧
      Moment.ofIso? cs = some m := by
    intro m
    cases m with
    | date d => exact ⟨_, rfl, Moment.ofIso?_date d⟩
    | dateTime dt => exact ⟨_, rfl, Moment.ofIso?_dateTime dt⟩
  obtain ⟨cs, hjson, hcs⟩ := hread m
  obtain ⟨ds, hjson', hds⟩ := hread m'
  rw [hjson, hjson'] at h
  rw [String.ofList_inj.mp h.string_inj, hds] at hcs
  exact (Option.some.inj hcs).symm

/-- Values of one type that are written the same are the same. -/
theorem eq_of_same {type : FieldType} {v w : Value} (hv : type.Holds v) (hw : type.Holds w)
    (h : v.toJson.Same w.toJson) : v = w := by
  cases hv with
  | string s =>
    cases hw
    rw [h.string_inj]
  | integer n =>
    cases hw with
    | integer m =>
      have hint : n.toInt = m.toInt := Json.Same.integer_inj h
      rw [Int64.toInt_inj.mp hint]
    | decimal normal => exact absurd h (not_same_integer_decimal n _).1
  | decimal normal =>
    cases hw with
    | integer m => exact absurd h (not_same_integer_decimal m _).2
    | decimal normal' => rw [decimal_eq_of_same normal normal' h]
  | boolean b =>
    cases hw with
    | boolean c =>
      cases h
      rfl
  | date format d =>
    cases hw with
    | date _ d' => exact congrArg ofMoment (@ofMoment_eq_of_same (.date d) (.date d') h)
    | dateTime _ dt' => exact congrArg ofMoment (@ofMoment_eq_of_same (.date d) (.dateTime dt') h)
  | dateTime format dt =>
    cases hw with
    | date _ d' => exact congrArg ofMoment (@ofMoment_eq_of_same (.dateTime dt) (.date d') h)
    | dateTime _ dt' =>
      exact congrArg ofMoment (@ofMoment_eq_of_same (.dateTime dt) (.dateTime dt') h)
  | variant mem =>
    cases hw
    rw [h.string_inj]

/-- Null is written like no value that a type holds. -/
theorem not_same_null {type : FieldType} {v : Value} (hv : type.Holds v) :
    ¬Json.Same .null v.toJson ∧ ¬v.toJson.Same .null := by
  cases hv with
  | @decimal d normal =>
    rcases toJson_decimal_cases d with ⟨x, _, hjson⟩ | hjson
    · rw [hjson]
      exact ⟨by rintro ⟨⟩, by rintro ⟨⟩⟩
    · rw [hjson]
      exact ⟨by rintro ⟨⟩, by rintro ⟨⟩⟩
  | _ => exact ⟨by rintro ⟨⟩, by rintro ⟨⟩⟩

/-- Operands of one field that are written the same are the same. -/
theorem eq_of_accepted {field : Field} {op : CompareOp} {v w : Value} (hv : field.Accepts op v)
    (hw : field.Accepts op w) (h : v.toJson.Same w.toJson) : v = w := by
  cases hv with
  | null _ _ =>
    cases hw with
    | null _ _ => rfl
    | held held => exact absurd h (not_same_null held).1
  | held held =>
    cases hw with
    | null _ _ => exact absurd h (not_same_null held).2
    | held held' => exact eq_of_same held held' h

end Value

/-! ## 4. Predicates of one schema -/

theorem CompareOp.name_injective {op op' : CompareOp} (h : op.name = op'.name) : op = op' :=
  Operator.compare.inj (@Operator.name_injective (.compare op) (.compare op') h)

theorem LogicalOp.name_injective {op op' : LogicalOp} (h : op.name = op'.name) : op = op' :=
  Operator.combine.inj (@Operator.name_injective (.combine op) (.combine op') h)

namespace Predicate

theorem toJsons_eq (done : List Json) (ps : List Predicate) :
    toJsons done ps = done.reverse ++ ps.map toJson := by
  induction ps generalizing done with
  | nil => simp [toJsons]
  | cons p ps ih => simp [toJsons, ih]

theorem toJson_combinator (op : LogicalOp) (children : List Predicate) :
    (combinator op children).toJson = combinatorJson op (children.map toJson) := by
  rw [toJson, toJsons_eq, List.reverse_nil, List.nil_append]

/-- The field and the operator come first, whatever the operands are. -/
theorem comparisonJson_eq (name : String) (op : CompareOp) (values : List Value) :
    ∃ rest, comparisonJson name op values =
      .object (("field", .string name) :: ("op", .string op.name) :: rest) := by
  cases op <;> exact ⟨_, rfl⟩

/-- Operands that are written the same are so one by one: none is left out. -/
theorem operands_of_same {name : String} {op : CompareOp} {vs ws : List Value}
    (hvs : op.Takes vs.length) (hws : op.Takes ws.length)
    (h : (comparisonJson name op vs).Same (comparisonJson name op ws)) :
    List.Forall₂ (fun v w => v.toJson.Same w.toJson) vs ws := by
  -- an operator with one operand writes just that one
  have hone : ∀ {vs ws : List Value}, vs.length = 1 → ws.length = 1 →
      Json.Same ((vs.head?.map Value.toJson).getD .null) ((ws.head?.map Value.toJson).getD .null) →
      List.Forall₂ (fun v w => v.toJson.Same w.toJson) vs ws := by
    intro vs ws hvs hws h
    obtain ⟨v, rfl⟩ := List.length_eq_one_iff.mp hvs
    obtain ⟨w, rfl⟩ := List.length_eq_one_iff.mp hws
    exact .cons h .nil
  cases op with
  | isNull | isNotNull =>
    rw [List.length_eq_zero_iff.mp hvs, List.length_eq_zero_iff.mp hws]
    exact .nil
  | oneOf =>
    cases h.of_cons.2.2.of_cons.2.2.of_cons.2.1 with
    | array items => rwa [List.forall₂_map_left_iff, List.forall₂_map_right_iff] at items
  | _ => exact hone hvs hws h.of_cons.2.2.of_cons.2.2.of_cons.2.1

/-- A combination is written with one child, or with a list of children. -/
theorem combinatorJson_cases (op : LogicalOp) (js : List Json) :
    (∃ j, js = [j] ∧ combinatorJson op js = .object [("child", j), ("op", .string op.name)]) ∨
      combinatorJson op js = .object [("children", .array js), ("op", .string op.name)] := by
  unfold combinatorJson
  split
  · exact .inl ⟨_, rfl, rfl⟩
  · exact .inr rfl

/-- Combinations that are written the same have the same operator, and children
that are written the same. -/
theorem children_of_same {op op' : LogicalOp} {js ks : List Json}
    (h : (combinatorJson op js).Same (combinatorJson op' ks)) :
    op = op' ∧ List.Forall₂ Json.Same js ks := by
  rcases combinatorJson_cases op js with ⟨j, rfl, hj⟩ | hj
  · rcases combinatorJson_cases op' ks with ⟨k, rfl, hk⟩ | hk
    · rw [hj, hk] at h
      obtain ⟨_, hchild, hop⟩ := h.of_cons
      exact ⟨LogicalOp.name_injective hop.of_cons.2.1.string_inj, .cons hchild .nil⟩
    · rw [hj, hk] at h
      exact absurd h.of_cons.1 (by decide)
  · rcases combinatorJson_cases op' ks with ⟨k, rfl, hk⟩ | hk
    · rw [hj, hk] at h
      exact absurd h.of_cons.1 (by decide)
    · rw [hj, hk] at h
      obtain ⟨_, hchildren, hop⟩ := h.of_cons
      refine ⟨LogicalOp.name_injective hop.of_cons.2.1.string_inj, ?_⟩
      cases hchildren with
      | array items => exact items

/-- A combination does not begin with a field. -/
theorem not_same_comparison_combinator (name : String) (op : CompareOp) (values : List Value)
    (op' : LogicalOp) (js : List Json) :
    ¬(comparisonJson name op values).Same (combinatorJson op' js) ∧
      ¬(combinatorJson op' js).Same (comparisonJson name op values) := by
  obtain ⟨rest, hcomparison⟩ := comparisonJson_eq name op values
  rw [hcomparison]
  rcases combinatorJson_cases op' js with ⟨j, _, hcombinator⟩ | hcombinator
  · rw [hcombinator]
    exact ⟨fun h => absurd h.of_cons.1 (by decide), fun h => absurd h.of_cons.1 (by decide)⟩
  · rw [hcombinator]
    exact ⟨fun h => absurd h.of_cons.1 (by decide), fun h => absurd h.of_cons.1 (by decide)⟩

/-- Comparisons of one schema that are written the same are the same. -/
theorem comparison_eq_of_same {schema : Schema} {name name' : String} {op op' : CompareOp}
    {vs ws : List Value} (hp : (comparison name op vs).WellTyped schema)
    (hq : (comparison name' op' ws).WellTyped schema)
    (h : (comparisonJson name op vs).Same (comparisonJson name' op' ws)) :
    comparison name op vs = comparison name' op' ws := by
  have hhead : name = name' ∧ op = op' := by
    obtain ⟨rest, hleft⟩ := comparisonJson_eq name op vs
    obtain ⟨rest', hright⟩ := comparisonJson_eq name' op' ws
    rw [hleft, hright] at h
    obtain ⟨_, hname, htail⟩ := h.of_cons
    exact ⟨hname.string_inj, CompareOp.name_injective htail.of_cons.2.1.string_inj⟩
  obtain ⟨rfl, rfl⟩ := hhead
  cases hp with
  | @comparison _ field _ _ known count accepted _ =>
    cases hq with
    | @comparison _ field' _ _ known' count' accepted' _ =>
      obtain rfl : field = field' := Option.some.inj (known.symm.trans known')
      have hvalues : vs = ws := by
        refine eq_of_forall₂_of_mem (operands_of_same count count' h) ?_
        exact fun v hv w hw => Value.eq_of_accepted (accepted v hv) (accepted' w hw)
      rw [hvalues]

/-- Predicates of one schema that are written the same are the same. -/
theorem eq_of_same {schema : Schema} {p q : Predicate} (hp : p.WellTyped schema)
    (hq : q.WellTyped schema) (h : p.toJson.Same q.toJson) : p = q := by
  induction p using Predicate.induction generalizing q with
  | comparison name op vs =>
    cases q with
    | comparison name' op' ws => exact comparison_eq_of_same hp hq h
    | combinator op' qs =>
      rw [toJson_combinator] at h
      exact absurd h (not_same_comparison_combinator name op vs op' _).1
  | combinator op ps ih =>
    rw [toJson_combinator] at h
    cases q with
    | comparison name' op' ws =>
      exact absurd h (not_same_comparison_combinator name' op' ws op _).2
    | combinator op' qs =>
      rw [toJson_combinator] at h
      obtain ⟨rfl, hchildren⟩ := children_of_same h
      rw [List.forall₂_map_left_iff, List.forall₂_map_right_iff] at hchildren
      cases hp with
      | combinator _ _ wellTyped =>
        cases hq with
        | combinator _ _ wellTyped' =>
          rw [eq_of_forall₂_of_mem hchildren fun p hmem q hmem' =>
            ih p hmem (wellTyped p hmem) (wellTyped' q hmem')]

/-- Without the schema, a day is not told from a string. -/
example : (comparison "at" .eq [.date ⟨2024, 3, 5, by decide⟩]).toJson =
    (comparison "at" .eq [.string "2024-03-05"]).toJson := by rfl

end Predicate

/-! ## 5. Whole queries -/

/-- **The JSON that is handed on tells the predicate.** Of two predicates that
queries have under one schema, whatever the texts and the limits are, the JSON
is the same to a reader exactly if they are the same predicate. -/
theorem Outcome.ofText_handOff {schema : Schema} {limits limits' : Limits} {text text' : String}
    {p q : Predicate} (hp : (Outcome.ofText schema limits text).predicate = some p)
    (hq : (Outcome.ofText schema limits' text').predicate = some q) :
    p.toJson.Same q.toJson ↔ p = q := by
  obtain ⟨_, _, _, hpbound⟩ := Outcome.sentence_of_predicate hp
  obtain ⟨_, _, _, hqbound⟩ := Outcome.sentence_of_predicate hq
  constructor
  · exact Predicate.eq_of_same (wellTyped_of_bind hpbound) (wellTyped_of_bind hqbound)
  · rintro rfl
    exact Json.Same.refl _

open Grammar in
/-- A day and the midnight it begins with are handed on as different strings. -/
theorem Outcome.ofText_handOff_of_midnight :
    let schema := Schema.empty.insert "at" ⟨.date none, false⟩
    let p := Predicate.comparison "at" .eq [.date ⟨2024, 3, 5, by decide⟩]
    let q := Predicate.comparison "at" .eq
      [.dateTime ⟨⟨2024, 3, 5, by decide⟩, ⟨0, 0, 0, 0, by decide⟩⟩]
    (Outcome.ofText schema {} "eq(at, '2024-03-05')").predicate = some p ∧
      (Outcome.ofText schema { maxDepth := 1 } "eq(at, '2024-03-05T00:00:00')").predicate = some q ∧
      ¬p.toJson.Same q.toJson := by
  intro schema p q
  let token (kind : Token.Kind) (lexeme : String) (i : Nat) : Token := ⟨kind, lexeme, ⟨i, 1, i + 1⟩⟩
  let head := token (.operator (.compare .eq)) "eq" 0
  let field := token (.identifier "at") "at" 3
  have hsentence : ∀ (value close : Token), isWord value = true → close.kind = .closeParen →
      Expression [head, token .openParen "(" 2, field, token .comma "," 5, value, close]
        (.call head [.word field, .word value]) :=
    fun value close hvalue hclose => .comparison rfl rfl rfl rfl hvalue hclose
  have hday : (Outcome.ofText schema {} "eq(at, '2024-03-05')").predicate = some p := by
    let value := token (.string "2024-03-05") "'2024-03-05'" 7
    let close := token .closeParen ")" 19
    have htokens : (Lexed.ofText "eq(at, '2024-03-05')").tokens =
        [head, token .openParen "(" 2, field, token .comma "," 5, value, close] := by
      decide +kernel
    rw [Outcome.ofText_of_sentence (p := p) (by decide) (by decide +kernel)
      (htokens ▸ hsentence value close rfl rfl) (by decide) rfl rfl]
  have hmidnight : (Outcome.ofText schema { maxDepth := 1 }
      "eq(at, '2024-03-05T00:00:00')").predicate = some q := by
    let value := token (.string "2024-03-05T00:00:00") "'2024-03-05T00:00:00'" 7
    let close := token .closeParen ")" 28
    have htokens : (Lexed.ofText "eq(at, '2024-03-05T00:00:00')").tokens =
        [head, token .openParen "(" 2, field, token .comma "," 5, value, close] := by
      decide +kernel
    rw [Outcome.ofText_of_sentence (p := q) (by decide) (by decide +kernel)
      (htokens ▸ hsentence value close rfl rfl) (by decide) rfl rfl]
  refine ⟨hday, hmidnight, ?_⟩
  rw [Outcome.ofText_handOff hday hmidnight]
  have hvalue : p.value? ≠ q.value? := by decide
  exact fun h => hvalue (congrArg Predicate.value? h)

end FilterQuery
