/-
FilterQuery.Proofs.Names — the names in a predicate that has been read.

A schema may hold a field under any name, but a query can only name it by
a word that is neither an operator nor a constant (`IsFieldName`). So the
fields of a predicate that has been read have such names, whatever the
schema is; this is what makes it possible to write them back.

The argument follows the steps of reading: every identifier among the
tokens has been read as a word (`identifier_of_run`), the fields of a
tree are identifiers among its tokens (`all_of_expression`), and the
fields of a predicate are those of the tree (`named_of_bind`).

The last step is an induction over the trees that bind. What the node of
such a tree leaves out, its tokens, is still there in each case: a field
and the operands beside it are single tokens (`bind_induction`).
-/
import FilterQuery.Proofs.Runs
import FilterQuery.Proofs.Typing

namespace FilterQuery

/-- Whether a query can name a field so. -/
def IsFieldName (name : String) : Prop := isName name = true ∧ isReserved name = false

/-! ## 1. Tokens -/

/-- A word that becomes an identifier is itself, and is not reserved. -/
theorem Token.Kind.ofWord_eq_identifier {w name : String} :
    Token.Kind.ofWord w = .identifier name ↔ w = name ∧ isReserved w = false := by
  unfold ofWord isReserved constantWords
  constructor
  · intro h
    split at h
    · cases h
    · split at h
      · cases h
      · split at h
        · cases h
        · split at h
          · cases h
          · next hop =>
            cases h
            simp_all
  · rintro ⟨rfl, hreserved⟩
    simp only [Bool.or_eq_false_iff, List.contains_eq_mem, decide_eq_false_iff_not,
      List.mem_cons, List.not_mem_nil, or_false, not_or, Option.isSome_eq_false_iff,
      Option.isNone_iff_eq_none] at hreserved
    obtain ⟨⟨htrue, hfalse, hnull⟩, hop⟩ := hreserved
    rw [if_neg htrue, if_neg hfalse, if_neg hnull, hop]

theorem isName_ofList {c : Char} {cs : List Char} (hc : isNameStart c = true) :
    isName (String.ofList (c :: cs.takeWhile isNameRest)) = true := by
  unfold isName
  rw [String.toList_ofList]
  simp [hc]

/-- Every identifier has been read as a word that can name a field. -/
theorem identifier_of_run (p : Position) (c : Char) (cs : List Char) :
    ∀ t, (readRun p c cs).1.token? = some t → ∀ name, t.kind = .identifier name →
      IsFieldName name := by
  apply readRun_cases (P := fun r => ∀ t, r.1.token? = some t → ∀ name,
    t.kind = .identifier name → IsFieldName name) p c cs
  case blank => rintro _ t ⟨⟩
  case mark =>
    intro kind hkind t ht name hname
    cases ht
    rcases markKind?_cases hkind with ⟨_, rfl⟩ | ⟨_, rfl⟩ | ⟨_, rfl⟩ <;> cases hname
  case quoted =>
    intro _ t ht name hname
    unfold readString at ht
    split at ht
    · cases ht
      cases hname
    · cases ht
  case numeral =>
    intro n rest _ _ t ht name hname
    unfold numeralRun at ht
    split at ht
    · cases ht
      cases hname
    · cases ht
  case word =>
    intro hstart t ht name hname
    cases ht
    obtain ⟨rfl, hreserved⟩ := Token.Kind.ofWord_eq_identifier.mp hname
    exact ⟨isName_ofList hstart, hreserved⟩
  case illegal => rintro _ _ _ t ⟨⟩

/-- Every identifier of a text can name a field. -/
theorem Lexed.identifier_of_mem {text : String} {t : Token} (h : t ∈ (Lexed.ofText text).tokens) :
    ∀ name, t.kind = .identifier name → IsFieldName name := by
  obtain ⟨r, hr, ht⟩ := List.mem_filterMap.mp h
  exact forall_runsFrom (P := fun r => ∀ t, r.token? = some t → ∀ name,
    t.kind = .identifier name → IsFieldName name) identifier_of_run .start text.toList r hr t ht

/-! ## 2. Trees that bind -/

namespace Grammar.Phrase

/-- Only a single token stands for a field. -/
theorem eq_word_of_node {e : Phrase} {name : String} {p : Position}
    (h : e.node = .field name p) : ∃ t, e = .word t ∧ t.kind = .identifier name := by
  cases e with
  | call head args =>
    rw [node, headNode] at h
    split at h <;> cases h
  | word t =>
    rw [node, wordNode] at h
    split at h
    · next hkind =>
      cases h
      exact ⟨t, rfl, hkind⟩
    all_goals cases h

/-- Only a single token stands for a literal. -/
theorem eq_word_of_literal {e : Phrase} {literal : Literal} {p : Position}
    (h : e.node = .literal literal p) : ∃ t, e = .word t := by
  cases e with
  | call head args =>
    rw [node, headNode] at h
    split at h <;> cases h
  | word t => exact ⟨t, rfl⟩

/-- Operands that have values are single tokens. -/
theorem words_of_operands (name : String) {field : Field} {op : CompareOp}
    {es : List Phrase} {values : List Value}
    (h : List.Forall₂ (fun n v => ∃ literal p, n = .literal literal p ∧
      field.coerce op literal = .ok v) (nodes es) values) :
    ∃ words : List Token, es = words.map .word ∧ List.Forall₂
      (fun t v => (Binding.operand name field op (word t).node).value = some v) words values := by
  rw [nodes_eq_map, List.forall₂_map_left_iff] at h
  induction h with
  | nil => exact ⟨[], rfl, .nil⟩
  | cons hv _ ih =>
    obtain ⟨words, rfl, hwords⟩ := ih
    obtain ⟨literal, p, hnode, hcoerce⟩ := hv
    obtain ⟨t, rfl⟩ := eq_word_of_literal hnode
    exact ⟨t :: words, rfl,
      .cons (Binding.operand_eq_some.mpr ⟨literal, p, hnode, hcoerce⟩) hwords⟩

/-- To prove something of every tree that binds and of what it binds to, prove it of calls of
combinators where it is true of the arguments, and of comparisons: a call with single tokens
for arguments, of which the first names the field and the others are the operands. -/
theorem bind_induction {schema : Schema} {P : Phrase → Predicate → Prop}
    (combine : ∀ head op args children, head.kind = .operator (.combine op) →
      List.Forall₂ P args children → P (.call head args) (.combinator op children))
    (compare : ∀ head subject words op name field values,
      head.kind = .operator (.compare op) → subject.kind = .identifier name →
      schema.get? name = some field → List.Forall₂
        (fun t v => (Binding.operand name field op (word t).node).value = some v) words values →
      P (.call head (.word subject :: words.map .word)) (.comparison name op values))
    {e : Phrase} {p : Predicate} (h : (Binding.node schema e.node).predicate = some p) : P e p := by
  induction e using induction generalizing p with
  | call head args ih =>
    rw [node, headNode] at h
    split at h
    · next op hhead =>
      cases op with
      | combine op =>
        obtain ⟨_, children, hchildren, rfl⟩ := Binding.node_combine_eq_some.mp h
        rw [nodes_eq_map, List.forall₂_map_left_iff] at hchildren
        exact combine head op args children hhead
          (forall₂_of_mem hchildren fun a ha child hbound => ih a ha hbound)
      | compare op =>
        rw [Binding.node] at h
        obtain ⟨name, _, _, field, values, hnodes, hget, _, hvalues, rfl⟩ :=
          Binding.comparison_eq_some.mp h
        cases args with
        | nil => cases hnodes
        | cons first rest =>
          obtain ⟨hfirst, rfl⟩ := List.cons.inj hnodes
          obtain ⟨subject, rfl, hsubject⟩ := eq_word_of_node hfirst
          obtain ⟨words, rfl, hwords⟩ := words_of_operands name hvalues
          exact compare head subject words op name field values hhead hsubject hget hwords
    · exact absurd h (by simp [Binding.node])
  | word t =>
    rw [node, wordNode] at h
    split at h <;> exact absurd h (by simp [Binding.node])

end Grammar.Phrase

/-! ## 3. Predicates -/

/-- Whether every field that a predicate names has a property. -/
inductive Predicate.Named (P : String → Prop) : Predicate → Prop
  | comparison {name : String} {op : CompareOp} {values : List Value} (ofName : P name) :
      Named P (.comparison name op values)
  | combinator {op : LogicalOp} {children : List Predicate}
      (ofChildren : ∀ p ∈ children, p.Named P) : Named P (.combinator op children)

/-- The fields of a predicate are identifiers of the tree it comes from. -/
theorem named_of_bind {schema : Schema} {P : String → Prop} {e : Grammar.Phrase} {p : Predicate}
    (hall : e.All (fun _ => True) fun t => ∀ name, t.kind = .identifier name → P name)
    (h : (Binding.node schema e.node).predicate = some p) : p.Named P := by
  refine Grammar.Phrase.bind_induction (P := fun e p => e.All (fun _ => True)
    (fun t => ∀ name, t.kind = .identifier name → P name) → p.Named P) ?_ ?_ h hall
  · intro head op args children _ hchildren hall
    cases hall with
    | call _ hargs =>
      exact .combinator (forall_of_forall₂ hchildren fun a ha _ hnamed => hnamed (hargs a ha))
  · intro head subject words op name field values _ hsubject _ _ hall
    cases hall with
    | call _ hargs =>
      cases hargs (.word subject) List.mem_cons_self with
      | word hword => exact .comparison (hword name hsubject)

/-- The fields of a predicate that has been read can be named in a query. -/
theorem Outcome.named_of_predicate {schema : Schema} {limits : Limits} {text : String}
    {p : Predicate} (h : (Outcome.ofText schema limits text).predicate = some p) :
    p.Named IsFieldName := by
  obtain ⟨e, he, _, hbound⟩ := Outcome.sentence_of_predicate h
  have hall := Grammar.all_of_expression he fun t ht => Lexed.identifier_of_mem ht
  exact named_of_bind (hall.mono (fun _ _ => trivial) fun t ht => ht.1) hbound

end FilterQuery
