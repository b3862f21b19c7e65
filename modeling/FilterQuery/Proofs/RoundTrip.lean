/-
FilterQuery.Proofs.RoundTrip — a predicate written as a query is read back.

The text of a predicate has the form of a call, whatever its operator
(`text_comparison`, `text_combinator`), so one lemma says how calls are
read (`reads_call`) and one how their arguments are (`reads_arguments`).
The rest is an induction over the predicate: its text is read as a
sentence no deeper than the predicate, with operators for heads, and the
node of the sentence binds to the predicate again (`reads_predicate`).

What is read back is the same predicate up to dates in fields with a
format of their own (`Predicate.Reread`); without such fields it is the
same predicate.
-/
import FilterQuery.Proofs.Literals

namespace FilterQuery

open Grammar

/-! ## 1. The text of a predicate -/

namespace Predicate

theorem text_comparison (field : String) (op : CompareOp) (values : List Value) :
    (comparison field op values).text =
      op.name ++ "(" ++ String.intercalate ", " (field :: values.map Value.text) ++ ")" := by
  simp [text, textOnto, comparisonText]

/-- What is written before a list of children only stands before them. -/
theorem textsOnto_eq {out : String} {first : Bool} {ps : List Predicate}
    (h : ∀ p ∈ ps, ∀ out, textOnto out p = out ++ p.text) :
    textsOnto out first ps =
      out ++ (if first ∨ ps = [] then "" else ", ") ++
        String.intercalate ", " (ps.map text) := by
  induction ps generalizing out first with
  | nil => simp [textsOnto]
  | cons p ps ih =>
    have hp := h p List.mem_cons_self
    have hps := fun q hq => h q (List.mem_cons_of_mem p hq)
    rw [textsOnto, ih hps, hp]
    cases ps with
    | nil => cases first <;> simp
    | cons q qs => cases first <;> simp [String.append_assoc]

/-- What is written before a predicate only stands before it. -/
theorem textOnto_eq (p : Predicate) (out : String) : textOnto out p = out ++ p.text := by
  induction p using Predicate.induction generalizing out with
  | comparison field op values => simp [text, textOnto]
  | combinator op children ih =>
    have honto := fun out => @textsOnto_eq out true children ih
    simp [text, textOnto, honto, String.append_assoc, String.push_eq_append]

theorem text_combinator (op : LogicalOp) (children : List Predicate) :
    (combinator op children).text =
      op.name ++ "(" ++ String.intercalate ", " (children.map text) ++ ")" := by
  have honto := fun out => @textsOnto_eq out true children fun p _ => textOnto_eq p
  simp [text, textOnto, honto, String.push_eq_append]

end Predicate

/-! ## 2. Calls -/

theorem isName_operator (op : Operator) : isName op.name = true := by
  cases op with
  | compare op => cases op <;> decide
  | combine op => cases op <;> decide

theorem ofWord_operator (op : Operator) : Token.Kind.ofWord op.name = .operator op := by
  have hconstant : ∀ op ∈ Operator.all, constantWords.contains op.name = false := by decide
  have hnot := hconstant op (Operator.mem_all op)
  simp only [constantWords, List.contains_eq_mem, decide_eq_false_iff_not, List.mem_cons,
    List.not_mem_nil, or_false, not_or] at hnot
  unfold Token.Kind.ofWord
  rw [if_neg hnot.1, if_neg hnot.2.1, if_neg hnot.2.2, Operator.ofName?_name]

/-- An argument with others behind it is read before them. -/
theorem reads_more {a b : String} {R : Phrase → Prop} {S : List Phrase → Prop}
    (ha : Reads a.toList fun ts => ∃ e, Argument ts e ∧ R e)
    (hb : Reads b.toList fun ts => ∃ es, Arguments ts es ∧ S es) :
    Reads (a ++ ", " ++ b).toList fun ts => ∃ e es, Arguments ts (e :: es) ∧ R e ∧ S es := by
  have htext : (a ++ ", " ++ b).toList = a.toList ++ ',' :: ' ' :: b.toList := by simp
  rw [htext]
  refine (ha.append (reads_mark rfl (reads_blank hb))
    fun rest => stops_cons (.inr (.inr rfl))).mono ?_
  rintro _ ⟨ts, _, rfl, ⟨e, he, hR⟩, comma, us, rfl, hcomma, es, hes, hS⟩
  exact ⟨e, es, .more he hcomma hes, hR, hS⟩

/-- Arguments are read one by one, each as what it is read as alone. -/
theorem reads_arguments {α : Type} {text : α → String} {R : α → Phrase → Prop} {xs : List α}
    (hne : xs ≠ [])
    (h : ∀ x ∈ xs, Reads (text x).toList fun ts => ∃ e, Argument ts e ∧ R x e) :
    Reads (String.intercalate ", " (xs.map text)).toList
      fun ts => ∃ es, Arguments ts es ∧ List.Forall₂ R xs es := by
  induction xs with
  | nil => exact absurd rfl hne
  | cons x xs ih =>
    have hx := h x List.mem_cons_self
    cases xs with
    | nil =>
      rw [List.map_cons, List.map_nil, String.intercalate_singleton]
      refine hx.mono ?_
      rintro ts ⟨e, he, hR⟩
      exact ⟨[e], .last he, .cons hR .nil⟩
    | cons y ys =>
      rw [List.map_cons, List.map_cons, String.intercalate_cons_cons]
      have hys := ih (List.cons_ne_nil y ys) fun z hz => h z (List.mem_cons_of_mem x hz)
      refine (reads_more hx hys).mono ?_
      rintro ts ⟨e, es, hes, hR, hRs⟩
      exact ⟨e :: es, hes, .cons hR hRs⟩

/-- A call is read with the arguments that are read inside it. -/
theorem reads_call (op : Operator) {args : String} {S : List Phrase → Prop}
    (h : Reads args.toList fun ts => ∃ es, Arguments ts es ∧ S es) :
    Reads (op.name ++ "(" ++ args ++ ")").toList
      fun ts => ∃ head es, Expression ts (.call head es) ∧ head.kind = .operator op ∧ S es := by
  have htext : (op.name ++ "(" ++ args ++ ")").toList =
      op.name.toList ++ '(' :: (args.toList ++ [')']) := by simp
  rw [htext]
  have hclose : Reads [')'] _ := reads_mark rfl Reads.nil
  have hinside := h.append hclose fun rest => stops_cons (.inr (.inl rfl))
  refine ((reads_word (isName_operator op)).append (reads_mark rfl hinside)
    fun rest => stops_cons (.inl rfl)).mono ?_
  rintro _ ⟨_, _, rfl, ⟨head, rfl, hhead⟩, opening, _, rfl, hopening, ts, _, rfl,
    ⟨es, hes, hS⟩, closing, _, rfl, hclosing, rfl⟩
  rw [ofWord_operator] at hhead
  exact ⟨head, es, .applied (by simp [isHead, hhead]) hopening hes hclosing, hhead, hS⟩

/-! ## 3. What is read again -/

/-- What a predicate may be read as again: the same tree of the same operators
and fields, and operands that are read again one by one. -/
inductive Predicate.Reread (schema : Schema) : Predicate → Predicate → Prop
  | comparison {name : String} {field : Field} {op : CompareOp} {vs ws : List Value}
      (known : schema.get? name = some field)
      (values : List.Forall₂ (Value.Reread field) vs ws) :
      Reread schema (.comparison name op vs) (.comparison name op ws)
  | combinator {op : LogicalOp} {ps qs : List Predicate}
      (children : List.Forall₂ (Predicate.Reread schema) ps qs) :
      Reread schema (.combinator op ps) (.combinator op qs)

/-- Whether a tree binds to a predicate that has been read again, and is no
deeper than it. -/
structure Rebinds (schema : Schema) (p : Predicate) (e : Phrase) : Prop where
  nesting_le : e.nesting ≤ p.depth
  unknownHeads_eq_nil : e.unknownHeads = []
  predicate : ∃ q, (Binding.node schema e.node).predicate = some q ∧ p.Reread schema q

/-- If each of some trees gives a result that goes with a value, together they
give results that go with the values. -/
theorem results_of_forall₂ {α β : Type} {Q : Node → β → Prop} {S : α → β → Prop}
    {xs : List α} {es : List Phrase}
    (h : List.Forall₂ (fun x e => ∃ y, Q e.node y ∧ S x y) xs es) :
    ∃ ys, List.Forall₂ Q (Phrase.nodes es) ys ∧ List.Forall₂ S xs ys := by
  induction h with
  | nil => exact ⟨[], .nil, .nil⟩
  | cons hx _ ih =>
    obtain ⟨y, hQ, hS⟩ := hx
    obtain ⟨ys, hQs, hSs⟩ := ih
    exact ⟨y :: ys, .cons hQ hQs, .cons hS hSs⟩

/-! ## 4. Predicates -/

/-- The name of a field is read as an argument that stands for it. -/
theorem reads_field {name : String} (h : IsFieldName name) :
    Reads name.toList fun ts => ∃ e, Argument ts e ∧ ∃ t, e = .word t ∧
      t.kind = .identifier name := by
  refine (reads_word h.1).mono ?_
  rintro _ ⟨t, rfl, hkind⟩
  rw [Token.Kind.ofWord_eq_identifier.mpr ⟨rfl, h.2⟩] at hkind
  exact ⟨.word t, .word (by simp [isWord, hkind]), t, rfl, hkind⟩

/-- An operand that the field accepts is read as an argument that the field
accepts again. -/
theorem reads_operand {field : Field} {op : CompareOp} {v : Value}
    (haccepts : field.Accepts op v) (hlike : op = .like → field.type = .string) :
    Reads v.text.toList fun ts => ∃ e, Argument ts e ∧ (∃ t, e = .word t) ∧
      ∃ w, (∃ literal p, e.node = .literal literal p ∧ field.coerce op literal = .ok w) ∧
        v.Reread field w := by
  refine (reads_value v).mono ?_
  rintro _ ⟨t, rfl, hkind⟩
  obtain ⟨w, hw, hreread⟩ := Field.coerce_literal haccepts hlike
  exact ⟨.word t, .word (isWord_of_kind hkind), ⟨t, rfl⟩, w,
    ⟨v.literal, t.position, wordNode_of_kind hkind, hw⟩, hreread⟩

/-- The text of a comparison is read as a call that binds to it again. -/
theorem reads_comparison {schema : Schema} {name : String} {field : Field} {op : CompareOp}
    {values : List Value} (hname : IsFieldName name) (hget : schema.get? name = some field)
    (hcount : op.Takes values.length) (haccepted : ∀ v ∈ values, field.Accepts op v)
    (hlike : op = .like → field.type = .string) :
    Reads (Predicate.comparison name op values).text.toList
      fun ts => ∃ e, Expression ts e ∧ Rebinds schema (.comparison name op values) e := by
  rw [Predicate.text_comparison]
  have hoperand := fun v hv => reads_operand (haccepted v hv) hlike
  have hargs : Reads (String.intercalate ", " (name :: values.map Value.text)).toList
      fun ts => ∃ as, Arguments ts as ∧ ∃ t es, as = .word t :: es ∧ t.kind = .identifier name ∧
        List.Forall₂ (fun v e => (∃ t, e = Phrase.word t) ∧
          ∃ w, (∃ literal p, e.node = .literal literal p ∧ field.coerce op literal = .ok w) ∧
            v.Reread field w) values es := by
    by_cases hvalues : values = []
    · rw [hvalues, List.map_nil, String.intercalate_singleton]
      refine (reads_field hname).mono ?_
      rintro ts ⟨_, he, t, rfl, hkind⟩
      exact ⟨_, .last he, t, [], rfl, hkind, .nil⟩
    · have hne : values.map Value.text ≠ [] := fun h => hvalues (List.map_eq_nil_iff.mp h)
      rw [String.intercalate_cons_of_ne_nil hne]
      refine (reads_more (reads_field hname) (reads_arguments hvalues hoperand)).mono ?_
      rintro ts ⟨_, es, hes, ⟨t, rfl, hkind⟩, hresults⟩
      exact ⟨_, hes, t, es, rfl, hkind, hresults⟩
  refine (reads_call (.compare op) hargs).mono ?_
  rintro ts ⟨head, _, he, hhead, t, es, rfl, hkind, hes⟩
  have hword : ∀ e ∈ es, ∃ t, e = Phrase.word t := forall_of_forall₂ hes fun _ _ _ he => he.1
  refine ⟨_, he, ?_, ?_, ?_⟩
  · rw [Phrase.nesting, Predicate.depth, Nat.add_le_add_iff_right, Phrase.nestingAmong_le_iff]
    refine List.forall_mem_cons.mpr ⟨Nat.le_refl _, ?_⟩
    intro e he
    obtain ⟨u, rfl⟩ := hword e he
    exact Nat.le_refl _
  · rw [Phrase.unknownHeads, List.append_eq_nil_iff, Phrase.unknownAmong_eq_nil_iff]
    refine ⟨by simp [Phrase.headErrors, hhead], ?_⟩
    refine List.forall_mem_cons.mpr ⟨rfl, ?_⟩
    intro e he
    obtain ⟨u, rfl⟩ := hword e he
    rfl
  · obtain ⟨ws, hws, hreread⟩ := results_of_forall₂
      (Q := fun n w => ∃ literal p, n = .literal literal p ∧ field.coerce op literal = .ok w)
      (S := Value.Reread field) (hes.imp fun v e he => he.2)
    refine ⟨.comparison name op ws, ?_, .comparison hget hreread⟩
    have hfield : Phrase.wordNode t = .field name t.position := by
      simp [Phrase.wordNode, hkind]
    rw [Phrase.node, Phrase.headNode, hhead, Phrase.nodes, Phrase.node, hfield]
    refine Binding.comparison_eq_some.mpr
      ⟨name, t.position, Phrase.nodes es, field, ws, rfl, hget, ?_, hws, rfl⟩
    rw [CompareOp.accepts_iff_takes, Phrase.nodes_eq_map, List.length_map, ← hes.length_eq]
    exact hcount

/-- The text of a combinator is read as a call that binds to it again, if this
is true of its children. -/
theorem reads_combinator {schema : Schema} {op : LogicalOp} {children : List Predicate}
    (hnonempty : 1 ≤ children.length) (hsingle : op = .not → children.length = 1)
    (h : ∀ p ∈ children, Reads p.text.toList
      fun ts => ∃ e, Expression ts e ∧ Rebinds schema p e) :
    Reads (Predicate.combinator op children).text.toList
      fun ts => ∃ e, Expression ts e ∧ Rebinds schema (.combinator op children) e := by
  rw [Predicate.text_combinator]
  have hne : children ≠ [] := List.length_pos_iff.mp hnonempty
  have hargs := reads_arguments hne fun p hp => (h p hp).mono
    fun ts ⟨e, he, hrebinds⟩ => ⟨e, Argument.expression he, hrebinds⟩
  refine (reads_call (.combine op) hargs).mono ?_
  rintro ts ⟨head, es, he, hhead, hes⟩
  refine ⟨_, he, ?_, ?_, ?_⟩
  · rw [Phrase.nesting, Predicate.depth, Nat.add_comm, Nat.add_le_add_iff_left,
      Phrase.nestingAmong_le_iff]
    refine forall_of_forall₂ hes fun p hp e he => Nat.le_trans he.nesting_le ?_
    exact (Predicate.depthAmong_le_iff.mp (Nat.le_refl _)).2 p hp
  · rw [Phrase.unknownHeads, List.append_eq_nil_iff, Phrase.unknownAmong_eq_nil_iff]
    exact ⟨by simp [Phrase.headErrors, hhead],
      forall_of_forall₂ hes fun p _ e he => he.unknownHeads_eq_nil⟩
  · obtain ⟨qs, hqs, hreread⟩ := results_of_forall₂
      (Q := fun n q => (Binding.node schema n).predicate = some q) (S := Predicate.Reread schema)
      (hes.imp fun p e he => he.predicate)
    refine ⟨.combinator op qs, ?_, .combinator hreread⟩
    rw [Phrase.node, Phrase.headNode, hhead]
    refine Binding.node_combine_eq_some.mpr ⟨LogicalOp.accepts_iff.mpr ?_, qs, hqs, rfl⟩
    rw [Phrase.nodes_eq_map, List.length_map, ← hes.length_eq]
    exact ⟨hnonempty, hsingle⟩

/-- The text of a well-typed predicate whose fields can be named is read as a
call that binds to it again. -/
theorem reads_predicate {schema : Schema} {p : Predicate} (htyped : p.WellTyped schema)
    (hnamed : p.Named IsFieldName) :
    Reads p.text.toList fun ts => ∃ e, Expression ts e ∧ Rebinds schema p e := by
  induction p using Predicate.induction with
  | comparison name op values =>
    cases htyped with
    | comparison known count accepted pattern =>
      cases hnamed with
      | comparison hname =>
        exact reads_comparison hname known count accepted fun hop => (pattern hop).1
  | combinator op children ih =>
    cases htyped with
    | combinator nonempty single wellTyped =>
      cases hnamed with
      | combinator hchildren =>
        exact reads_combinator nonempty single fun p hp =>
          ih p hp (wellTyped p hp) (hchildren p hp)

/-! ## 5. Whole queries -/

theorem Schema.mem_of_get? {schema : Schema} {name : String} {field : Field}
    (h : schema.get? name = some field) : (name, field) ∈ schema.fields := by
  obtain ⟨before, after, hfields, _⟩ := List.lookup_eq_some_iff.mp h
  rw [hfields]
  simp

/-- Without formats of their own, fields have their values read again as they
were. -/
theorem Predicate.Reread.eq {schema : Schema} {p q : Predicate} (h : p.Reread schema q)
    (hformat : ∀ x ∈ schema.fields, ∀ format, x.2.type ≠ .date (some format)) : q = p := by
  induction p using Predicate.induction generalizing q with
  | comparison name op vs =>
    cases h with
    | @comparison _ field _ _ _ known values =>
      have hvalue : ∀ v ∈ vs, ∀ w, Value.Reread field v w → w = v := by
        intro v _ w hw
        cases hw with
        | same => rfl
        | formatted type _ _ => exact absurd type (hformat _ (Schema.mem_of_get? known) _)
      rw [eq_of_forall₂_of_mem values fun v hv w _ hw => (hvalue v hv w hw).symm]
  | combinator op ps ih =>
    cases h with
    | combinator children =>
      rw [eq_of_forall₂_of_mem children fun p hp q _ hq => (ih p hp hq).symm]

/-- **A predicate written as a query is read back**, under the schema and the
limit of levels it was read under, if its text is not too long. Nothing is
reported, and what is read back is

* the same tree of the same operators and fields, with operands that are the
  same, unless a date field has a format of its own that the ISO form of the
  operand fits (`Predicate.Reread`);
* so without such formats the same predicate. -/
theorem Outcome.ofText_text {schema : Schema} {limits : Limits} {text : String} {p : Predicate}
    {length : Nat} (h : (Outcome.ofText schema limits text).predicate = some p)
    (hlength : p.text.utf8ByteSize ≤ length) :
    ∃ q, Outcome.ofText schema { limits with maxInputLength := length } p.text =
        ⟨some q, [], [], []⟩ ∧
      p.Reread schema q ∧
      ((∀ x ∈ schema.fields, ∀ format, x.2.type ≠ .date (some format)) → q = p) := by
  obtain ⟨e, _, hnesting, hbound⟩ := Outcome.sentence_of_predicate h
  have hdepth : p.depth ≤ min limits.maxDepth depthCeiling :=
    Nat.le_trans (depth_le_of_bind hbound) (Nat.le_trans e.nesting_node_le hnesting)
  obtain ⟨⟨e', he', hrebinds⟩, hlex⟩ :=
    (reads_predicate (wellTyped_of_bind hbound) (Outcome.named_of_predicate h)).ofText
  obtain ⟨q, hq, hreread⟩ := hrebinds.predicate
  refine ⟨q, ?_, hreread, hreread.eq⟩
  exact Outcome.ofText_of_sentence hlength hlex he' (Nat.le_trans hrebinds.nesting_le hdepth)
    hrebinds.unknownHeads_eq_nil hq

/-- `lt(at, '2024-03-05 10:30:00.5')` is written with a `T` and three digits of
a second, and is read back from that. -/
theorem Outcome.ofText_text_of_half_second :
    let schema := Schema.empty.insert "at" ⟨.date none, false⟩
    let p := Predicate.comparison "at" .lt
      [.dateTime ⟨⟨2024, 3, 5, by decide⟩, ⟨10, 30, 0, 500000000, by decide⟩⟩]
    (Outcome.ofText schema {} "lt(at, '2024-03-05 10:30:00.5')").predicate = some p ∧
      p.text = "lt(at, '2024-03-05T10:30:00.500')" ∧
      Outcome.ofText schema { maxInputLength := 33 } p.text = ⟨some p, [], [], []⟩ := by
  intro schema p
  let token (kind : Token.Kind) (lexeme : String) (i : Nat) : Token := ⟨kind, lexeme, ⟨i, 1, i + 1⟩⟩
  let field := token (.identifier "at") "at" 3
  let value := token (.string "2024-03-05 10:30:00.5") "'2024-03-05 10:30:00.5'" 7
  have htokens : (Lexed.ofText "lt(at, '2024-03-05 10:30:00.5')").tokens =
      [token (.operator (.compare .lt)) "lt" 0, token .openParen "(" 2, field,
        token .comma "," 5, value, token .closeParen ")" 30] := by decide +kernel
  have hsentence : Expression (Lexed.ofText "lt(at, '2024-03-05 10:30:00.5')").tokens
      (.call (token (.operator (.compare .lt)) "lt" 0) [.word field, .word value]) := by
    rw [htokens]
    exact .comparison rfl rfl rfl rfl rfl rfl
  have hpredicate : (Outcome.ofText schema {} "lt(at, '2024-03-05 10:30:00.5')").predicate =
      some p := by
    rw [Outcome.ofText_of_sentence (p := p) (by decide) (by decide +kernel) hsentence (by decide)
      rfl rfl]
  have htext : p.text = "lt(at, '2024-03-05T10:30:00.500')" := by decide +kernel
  obtain ⟨q, hq, _, hsame⟩ := Outcome.ofText_text hpredicate
    (show p.text.utf8ByteSize ≤ 33 by rw [htext]; decide)
  have hformat : ∀ x ∈ schema.fields, ∀ format, x.2.type ≠ .date (some format) := by
    simp [schema, Schema.insert, Schema.insertInto, Schema.empty]
  rw [hsame hformat] at hq
  exact ⟨hpredicate, htext, hq⟩
end FilterQuery
