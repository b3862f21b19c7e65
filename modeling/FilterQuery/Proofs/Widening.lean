/-
FilterQuery.Proofs.Widening — a schema may grow without breaking queries.

A schema is widened by adding fields, by letting a field be null, and by
adding variants to an enumeration (`Schema.Widens`). Every other type
stays as it is; a date field keeps its format as well, since another
format may read the same text as another date.

Binding asks a schema three things: whether a field is there, what type
it has, and what a literal means to it. What a literal means to a field it
also means to a wider one (`Field.coerce_of_widens`), and with the number
of arguments schemas have nothing to do. So a tree that binds to a schema
binds to the same predicate in every wider one (`Schema.bind_of_widens`),
and since a text is read without looking at the schema, a query keeps its
meaning (`Outcome.ofText_of_widens`).
-/
import FilterQuery.Proofs.Explanation

namespace FilterQuery

/-! ## 1. Wider schemas -/

/-- A type and itself, or an enumeration and one that has all of its variants. -/
inductive FieldType.Widens : FieldType → FieldType → Prop
  | same (type : FieldType) : Widens type type
  | variants {vs ws : List String} (kept : ∀ v ∈ vs, v ∈ ws) : Widens (.enum vs) (.enum ws)

/-- A field and one of a wider type that may be null if the first one may. -/
structure Field.Widens (field wider : Field) : Prop where
  type : field.type.Widens wider.type
  nullable : field.nullable = true → wider.nullable = true

/-- A schema and one that has all of its fields, none of them narrower. -/
def Schema.Widens (schema wider : Schema) : Prop :=
  ∀ name field, schema.get? name = some field →
    ∃ field', wider.get? name = some field' ∧ field.Widens field'

/-! ## 2. Literals -/

namespace FieldType

/-- Only enumerations are widened, and no pattern is matched against one. -/
theorem Widens.eq_string {type wider : FieldType} (h : type.Widens wider)
    (hstring : type = .string) : wider = .string := by
  cases h with
  | same => exact hstring
  | variants => cases hstring

/-- A literal that has a value in a type has the same one in a wider type. -/
theorem value?_of_widens {type wider : FieldType} (h : type.Widens wider) {literal : Literal}
    {v : Value} (hv : type.value? literal = some v) : wider.value? literal = some v := by
  cases h with
  | same => exact hv
  | @variants vs ws kept =>
    cases literal with
    | string s =>
      have hread : ∀ us, (enum us).value? (.string s) =
          if us.contains s then some (.string s) else none := fun _ => rfl
      rw [hread] at hv ⊢
      split at hv
      · next hmem =>
        rw [if_pos (List.contains_iff_mem.mpr (kept s (List.contains_iff_mem.mp hmem)))]
        exact hv
      · cases hv
    | number n => cases hv
    | boolean b => cases hv
    | null => cases hv

end FieldType

/-- What a literal means to a field, it means to a wider one. -/
theorem Field.coerce_of_widens {field wider : Field} (h : field.Widens wider) {op : CompareOp}
    {literal : Literal} {v : Value} (hv : field.coerce op literal = .ok v) :
    wider.coerce op literal = .ok v := by
  unfold coerce at hv ⊢
  by_cases hnull : literal = .null
  · simp only [hnull, if_true] at hv ⊢
    cases hop : op.acceptsNull with
    | false =>
      rw [hop] at hv
      cases hv
    | true =>
      cases hfield : field.nullable with
      | false =>
        rw [hop, hfield] at hv
        cases hv
      | true =>
        rw [hop, hfield] at hv
        rw [h.nullable hfield]
        exact hv
  · simp only [hnull, if_false] at hv ⊢
    split at hv
    · cases hv
    · next hlike =>
      have hlike' : ¬(op = .like ∧ wider.type ≠ .string) := by
        rintro ⟨hop, hne⟩
        exact hlike ⟨hop, fun hstring => hne (h.type.eq_string hstring)⟩
      rw [if_neg hlike']
      split at hv
      · next w hw =>
        rw [FieldType.value?_of_widens h.type hw]
        exact hv
      · cases hv

/-! ## 3. Trees and queries -/

/-- **A tree that binds to a schema binds to the same predicate in a wider one.** -/
theorem Schema.bind_of_widens {schema wider : Schema} (h : schema.Widens wider) {n : Node}
    {p : Predicate} (hp : (schema.bind n).predicate = some p) :
    (wider.bind n).predicate = some p := by
  refine Binding.predicate_induction (P := fun n p => (wider.bind n).predicate = some p) ?_ ?_ hp
  · intro op args position children harity hargs
    exact Binding.node_combine_eq_some.mpr ⟨harity, children, hargs, rfl⟩
  · intro op name fieldPosition rest position field values hget harity hvalues
    obtain ⟨field', hget', hfield⟩ := h name field hget
    refine Binding.comparison_eq_some.mpr
      ⟨name, fieldPosition, rest, field', values, rfl, hget', harity, ?_, rfl⟩
    refine hvalues.imp ?_
    rintro n v ⟨literal, p, hn, hcoerce⟩
    exact ⟨literal, p, hn, Field.coerce_of_widens hfield hcoerce⟩

/-- **Widening a schema never breaks a query.** A text that has a predicate under a
schema has the same predicate under every wider one, and nothing is reported,
whatever the limits are. -/
theorem Outcome.ofText_of_widens {schema wider : Schema} {limits : Limits} {text : String}
    {p : Predicate} (hwider : schema.Widens wider)
    (h : (Outcome.ofText schema limits text).predicate = some p) :
    Outcome.ofText wider limits text = ⟨some p, [], [], []⟩ := by
  obtain ⟨hlex, hparse, _, n, hast, hbound⟩ := Outcome.of_predicate h
  have hwide : (wider.bind n).predicate = some p := Schema.bind_of_widens hwider hbound
  have hnone : (wider.bind n).errors = [] := Binding.errors_of_predicate hwide
  have hread : Syntactic.ofText limits text = ⟨some n, [], []⟩ := by
    rw [← hast, ← hlex, ← hparse]
    rfl
  rw [Outcome.ofText, Outcome.ofSyntactic, hread]
  simp [hwide, hnone]

open Grammar in
/-- `in(status, 'on')`, where `status` gains a variant in front of the only one it had and
may be null, and another field is added. -/
theorem Outcome.ofText_of_widens_of_status :
    let schema := Schema.empty.insert "status" ⟨.enum ["on"], false⟩
    let wider :=
      (Schema.empty.insert "status" ⟨.enum ["off", "on"], true⟩).insert "age" ⟨.number, false⟩
    let p := Predicate.comparison "status" .oneOf [.string "on"]
    schema.Widens wider ∧
      (Outcome.ofText schema {} "in(status, 'on')").predicate = some p ∧
      Outcome.ofText wider {} "in(status, 'on')" = ⟨some p, [], [], []⟩ := by
  intro schema wider p
  let token (kind : Token.Kind) (lexeme : String) (i : Nat) : Token := ⟨kind, lexeme, ⟨i, 1, i + 1⟩⟩
  let field := token (.identifier "status") "status" 3
  let value := token (.string "on") "'on'" 11
  have htokens : (Lexed.ofText "in(status, 'on')").tokens =
      [token (.operator (.compare .oneOf)) "in" 0, token .openParen "(" 2, field,
        token .comma "," 9, value, token .closeParen ")" 15] := by decide +kernel
  have hsentence : Expression (Lexed.ofText "in(status, 'on')").tokens
      (.call (token (.operator (.compare .oneOf)) "in" 0) [.word field, .word value]) := by
    rw [htokens]
    exact .comparison rfl rfl rfl rfl rfl rfl
  have hpredicate : (Outcome.ofText schema {} "in(status, 'on')").predicate = some p := by
    rw [Outcome.ofText_of_sentence (p := p) (by decide) (by decide +kernel) hsentence (by decide)
      rfl rfl]
  have hwider : schema.Widens wider := by
    intro name f hget
    obtain ⟨before, after, hfields, _⟩ := List.lookup_eq_some_iff.mp hget
    have hmem : (name, f) ∈ schema.fields := by simp [hfields]
    obtain ⟨rfl, rfl⟩ := Prod.mk.inj (List.mem_singleton.mp hmem)
    exact ⟨⟨.enum ["off", "on"], true⟩, by decide, .variants (by decide), fun _ => rfl⟩
  exact ⟨hwider, hpredicate, Outcome.ofText_of_widens hwider hpredicate⟩

end FilterQuery
