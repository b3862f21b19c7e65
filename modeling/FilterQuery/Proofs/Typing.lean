/-
FilterQuery.Proofs.Typing — every predicate that is handed out is well
typed.

What a reader of predicates may rely on is a relation between a predicate
and the schema (`Predicate.WellTyped`), stated without reference to
trees, literals or the order in which binding checks things:

* a comparison names a field of the schema and has as many operands as
  its operator takes, each of which the field accepts;
* a pattern is a string, and is matched against a string field;
* a combinator has at least one child, and `not` has exactly one.

Binding keeps to it (`wellTyped_of_bind`) because coercion does
(`accepts_of_coerce`) and because the number of operands is checked
before any of them is looked at. Levels of the predicate are levels of
the tree (`depth_le_of_bind`), and those were counted in reading.
-/
import FilterQuery.Proofs.Decimals
import FilterQuery.Proofs.Explanation

namespace FilterQuery

/-! ## 1. What is well typed -/

/-- The values other than null that a field of a type may hold. -/
inductive FieldType.Holds : FieldType → Value → Prop
  | string (s : String) : Holds .string (.string s)
  | integer (n : Int64) : Holds .number (.integer n)
  | decimal {d : Decimal} (normal : d.IsNormal) : Holds .number (.decimal d)
  | boolean (b : Bool) : Holds .boolean (.boolean b)
  | date (format : Option String) (d : Date) : Holds (.date format) (.date d)
  | dateTime (format : Option String) (dt : DateTime) : Holds (.date format) (.dateTime dt)
  | variant {variants : List String} {s : String} (mem : s ∈ variants) :
      Holds (.enum variants) (.string s)

/-- The operands a field accepts from an operator. -/
inductive Field.Accepts (field : Field) (op : CompareOp) : Value → Prop
  | null (nullable : field.nullable = true) (operator : op = .eq ∨ op = .ne ∨ op = .oneOf) :
      Accepts field op .null
  | held {v : Value} (held : field.type.Holds v) : Accepts field op v

/-- How many operands an operator takes, its field not counted. -/
def CompareOp.Takes : CompareOp → Nat → Prop
  | oneOf, n => 1 ≤ n
  | isNull, n | isNotNull, n => n = 0
  | _, n => n = 1

/-- A predicate that a schema gives a meaning. -/
inductive Predicate.WellTyped (schema : Schema) : Predicate → Prop
  | comparison {name : String} {field : Field} {op : CompareOp} {values : List Value}
      (known : schema.get? name = some field) (count : op.Takes values.length)
      (accepted : ∀ v ∈ values, field.Accepts op v)
      (pattern : op = .like → field.type = .string ∧ ∀ v ∈ values, ∃ s, v = .string s) :
      WellTyped schema (.comparison name op values)
  | combinator {op : LogicalOp} {children : List Predicate} (nonempty : 1 ≤ children.length)
      (single : op = .not → children.length = 1)
      (wellTyped : ∀ p ∈ children, p.WellTyped schema) :
      WellTyped schema (.combinator op children)

/-! ## 2. Coercion -/

theorem FieldType.holds_of_valueOfString? {type : FieldType} {s : String} {v : Value}
    (h : type.valueOfString? s = some v) : type.Holds v := by
  cases type with
  | string =>
    cases h
    exact .string s
  | number =>
    obtain ⟨d, _, rfl⟩ := Option.map_eq_some_iff.mp h
    rcases Value.ofDecimal_cases d with ⟨n, hn⟩ | ⟨d', hd', hnormal⟩
    · rw [hn]
      exact .integer n
    · rw [hd']
      exact .decimal hnormal
  | boolean =>
    simp only [valueOfString?] at h
    split at h
    · cases h
      exact .boolean true
    · split at h
      · cases h
        exact .boolean false
      · cases h
  | date format =>
    obtain ⟨m, _, rfl⟩ := Option.map_eq_some_iff.mp h
    cases m with
    | date d => exact .date format d
    | dateTime dt => exact .dateTime format dt
  | enum variants =>
    simp only [valueOfString?] at h
    split at h
    · next hmem =>
      cases h
      exact .variant (List.contains_iff_mem.mp hmem)
    · cases h

/-- The value of a literal is one the type holds. -/
theorem FieldType.holds_of_value? {type : FieldType} {literal : Literal} {v : Value}
    (h : type.value? literal = some v) : type.Holds v := by
  unfold value? at h
  split at h
  · next n =>
    cases h
    rcases Value.ofDecimal_cases n with ⟨m, hm⟩ | ⟨d, hd, hnormal⟩
    · rw [hm]
      exact .integer m
    · rw [hd]
      exact .decimal hnormal
  · cases h
    exact .boolean _
  · exact holds_of_valueOfString? h
  · cases h

theorem CompareOp.acceptsNull_iff {op : CompareOp} :
    op.acceptsNull = true ↔ op = .eq ∨ op = .ne ∨ op = .oneOf := by
  cases op <;> decide

/-- A literal becomes an operand the field accepts; a pattern becomes a string. -/
theorem Field.accepts_of_coerce {field : Field} {op : CompareOp} {literal : Literal} {v : Value}
    (h : field.coerce op literal = .ok v) :
    field.Accepts op v ∧ (op = .like → field.type = .string ∧ ∃ s, v = .string s) := by
  unfold coerce at h
  split at h
  · split at h
    · cases h
    · next hop =>
      have hnull : op.acceptsNull = true := by simpa using hop
      split at h
      · cases h
      · next hnullable =>
        cases h
        refine ⟨.null (by simpa using hnullable) (CompareOp.acceptsNull_iff.mp hnull), ?_⟩
        rintro rfl
        exact absurd hnull (by decide)
  · split at h
    · cases h
    · next hlike =>
      split at h
      · next w hvalue =>
        cases h
        have hheld := FieldType.holds_of_value? hvalue
        refine ⟨.held hheld, ?_⟩
        intro hop
        have htype : field.type = .string := by
          apply Decidable.byContradiction
          exact fun hne => hlike ⟨hop, hne⟩
        rw [htype] at hheld
        cases hheld with
        | string s => exact ⟨htype, s, rfl⟩
      · cases h

/-! ## 3. Binding -/

theorem CompareOp.accepts_iff_takes {op : CompareOp} {n : Nat} :
    (Operator.compare op).arity.accepts (n + 1) = true ↔ op.Takes n := by
  cases op <;> simp [Operator.arity, Arity.accepts, Takes]

theorem LogicalOp.accepts_iff {op : LogicalOp} {n : Nat} :
    (Operator.combine op).arity.accepts n = true ↔ 1 ≤ n ∧ (op = .not → n = 1) := by
  cases op <;> simp [Operator.arity, Arity.accepts]
  omega

/-- What a tree binds to is well typed. -/
theorem wellTyped_of_bind {schema : Schema} {n : Node} {p : Predicate}
    (h : (Binding.node schema n).predicate = some p) : p.WellTyped schema := by
  refine Binding.predicate_induction (P := fun _ p => p.WellTyped schema) ?_ ?_ h
  · intro op args position children harity hargs
    rw [hargs.length_eq] at harity
    obtain ⟨hnonempty, hsingle⟩ := LogicalOp.accepts_iff.mp harity
    exact .combinator hnonempty hsingle (forall_of_forall₂ hargs fun _ _ _ h => h)
  · intro op name fieldPosition rest position field values hget harity hvalues
    rw [hvalues.length_eq] at harity
    have htakes := CompareOp.accepts_iff_takes.mp harity
    have haccepts : ∀ v ∈ values, field.Accepts op v ∧
        (op = .like → field.type = .string ∧ ∃ s, v = .string s) := by
      refine forall_of_forall₂ hvalues ?_
      rintro _ _ v ⟨literal, _, rfl, hcoerce⟩
      exact Field.accepts_of_coerce hcoerce
    refine .comparison hget htakes (fun v hv => (haccepts v hv).1) ?_
    rintro rfl
    -- there is exactly one operand, and it tells the type of the field
    have hlength : 0 < values.length := Nat.lt_of_lt_of_eq Nat.one_pos htakes.symm
    obtain ⟨v, hv⟩ := List.exists_mem_of_length_pos hlength
    exact ⟨((haccepts v hv).2 rfl).1, fun w hw => ((haccepts w hw).2 rfl).2⟩

/-- A predicate has as many levels as its tree has nested calls. -/
theorem depth_eq_of_bind {schema : Schema} {n : Node} {p : Predicate}
    (h : (Binding.node schema n).predicate = some p) : p.depth = n.nesting := by
  refine Binding.predicate_induction (P := fun n p => p.depth = n.nesting) ?_ ?_ h
  · intro op args position children _ hargs
    rw [Predicate.depth, Node.nesting, Nat.add_comm, Nat.add_left_inj]
    apply Nat.le_antisymm
    · refine Predicate.depthAmong_le_iff.mpr ⟨Nat.zero_le _, forall_of_forall₂ hargs ?_⟩
      intro a ha child hdepth
      exact hdepth ▸ Node.nestingAmong_le_iff.mp (Nat.le_refl _) a ha
    · refine Node.nestingAmong_le_iff.mpr (forall_of_forall₂ hargs.flip ?_)
      intro child hchild a hdepth
      exact hdepth ▸ (Predicate.depthAmong_le_iff.mp (Nat.le_refl _)).2 child hchild
  · intro op name fieldPosition rest position field values _ _ hvalues
    -- the arguments of a comparison are a field and literals
    have hflat : Node.nestingAmong (.field name fieldPosition :: rest) ≤ 0 := by
      refine Node.nestingAmong_le_iff.mpr (List.forall_mem_cons.mpr ⟨Nat.le_refl _, ?_⟩)
      refine forall_of_forall₂ hvalues.flip ?_
      rintro v _ n ⟨literal, p, rfl, _⟩
      exact Nat.le_refl _
    rw [Predicate.depth, Node.nesting, Nat.le_zero.mp hflat]

theorem depth_le_of_bind {schema : Schema} {n : Node} {p : Predicate}
    (h : (Binding.node schema n).predicate = some p) : p.depth ≤ n.nesting :=
  Nat.le_of_eq (depth_eq_of_bind h)

/-! ## 4. Whole queries -/

/-- **Every predicate handed out is well typed**, and has no more levels than
the limits allow, whatever the schema, the limits and the text are. -/
theorem Outcome.ofText_wellTyped {schema : Schema} {limits : Limits} {text : String}
    {p : Predicate} (h : (Outcome.ofText schema limits text).predicate = some p) :
    p.WellTyped schema ∧ p.depth ≤ min limits.maxDepth depthCeiling := by
  obtain ⟨e, _, hnesting, hbound⟩ := Outcome.sentence_of_predicate h
  exact ⟨wellTyped_of_bind hbound,
    Nat.le_trans (depth_le_of_bind hbound) (Nat.le_trans e.nesting_node_le hnesting)⟩

open Grammar in
/-- `not(in(age, '2.50'))` under a limit of two levels. -/
theorem Outcome.ofText_wellTyped_of_not_in :
    let schema := Schema.empty.insert "age" ⟨.number, false⟩
    let p := Predicate.combinator .not
      [.comparison "age" .oneOf [.decimal ⟨25, 1, by decide, by decide⟩]]
    (Outcome.ofText schema { maxDepth := 2 } "not(in(age, '2.50'))").predicate = some p ∧
      p.WellTyped schema ∧ p.depth ≤ 2 := by
  intro schema p
  let token (kind : Token.Kind) (lexeme : String) (i : Nat) : Token := ⟨kind, lexeme, ⟨i, 1, i + 1⟩⟩
  let field := token (.identifier "age") "age" 7
  let value := token (.string "2.50") "'2.50'" 12
  have htokens : (Lexed.ofText "not(in(age, '2.50'))").tokens =
      [token (.operator (.combine .not)) "not" 0, token .openParen "(" 3,
        token (.operator (.compare .oneOf)) "in" 4, token .openParen "(" 6, field,
        token .comma "," 10, value, token .closeParen ")" 18, token .closeParen ")" 19] := by
    decide +kernel
  have hcall : Expression [token (.operator (.compare .oneOf)) "in" 4, token .openParen "(" 6, field,
      token .comma "," 10, value, token .closeParen ")" 18]
      (.call (token (.operator (.compare .oneOf)) "in" 4) [.word field, .word value]) :=
    .comparison rfl rfl rfl rfl rfl rfl
  have hsentence : Expression (Lexed.ofText "not(in(age, '2.50'))").tokens
      (.call (token (.operator (.combine .not)) "not" 0)
        [.call (token (.operator (.compare .oneOf)) "in" 4) [.word field, .word value]]) := by
    rw [htokens]
    exact @Expression.applied _ (token .openParen "(" 3) (token .closeParen ")" 19) _ _ rfl rfl
      (.last (.expression hcall)) rfl
  have hpredicate : (Outcome.ofText schema { maxDepth := 2 } "not(in(age, '2.50'))").predicate =
      some p := by
    rw [Outcome.ofText_of_sentence (p := p) (by decide) (by decide +kernel) hsentence (by decide)
      rfl rfl]
  exact ⟨hpredicate, Outcome.ofText_wellTyped hpredicate⟩
end FilterQuery
