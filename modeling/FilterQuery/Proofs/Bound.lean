/-
FilterQuery.Proofs.Bound — when a tree binds, and what it says when it
does not.

For each of the two sorts of calls there is one lemma that says exactly
when it binds and to what (`node_combine_eq_some`, `comparison_eq_some`),
in terms of its arguments bound one by one. Everything else about
binding follows from these and from the equations of the errors.

A tree that binds reports nothing (`errors_of_predicate`). The converse
needs a tree with nothing missing (`predicate_of_errors`): an `invalid`
node fails silently, since whoever left it there has reported it.
-/
import FilterQuery.Binding
import FilterQuery.Proofs.Shape

namespace FilterQuery

namespace Binding

/-! ## 1. Some values of which all have to be there -/

theorem allOf_eq_some {α : Type} {xs : List (Option α)} {ys : List α} :
    allOf xs = some ys ↔ xs = ys.map some := by
  unfold allOf
  constructor
  · intro h
    split at h
    · next hall =>
      obtain rfl := Option.some.inj h
      clear h
      induction xs with
      | nil => rfl
      | cons x xs ih =>
        rw [List.all_cons, Bool.and_eq_true] at hall
        obtain ⟨y, rfl⟩ := Option.isSome_iff_exists.mp hall.1
        exact congrArg (some y :: ·) (ih hall.2)
    · exact absurd h (by simp)
  · rintro rfl
    simp

/-- Results are all there exactly if they go side by side with values. -/
theorem allOf_map_eq_some {α β : Type} {f : α → Option β} {xs : List α} {ys : List β} :
    allOf (xs.map f) = some ys ↔ List.Forall₂ (fun x y => f x = some y) xs ys := by
  rw [allOf_eq_some, ← List.forall₂_eq_eq_eq, List.forall₂_map_left_iff,
    List.forall₂_map_right_iff]

theorem allOf_cons {α : Type} (x : Option α) (xs : List (Option α)) :
    allOf (x :: xs) = x.bind fun v => (allOf xs).map (v :: ·) := by
  unfold allOf
  cases x with
  | none => rfl
  | some v =>
    rw [List.all_cons, Option.isSome_some, Bool.true_and]
    split <;> rfl

theorem allOf_map {α β : Type} (f : α → Option β) (xs : List α) :
    allOf (xs.map f) =
      if ∀ x ∈ xs, (f x).isSome = true then some (xs.filterMap f) else none := by
  unfold allOf
  rw [List.filterMap_map, List.all_map]
  simp only [List.all_eq_true, Function.comp_apply]
  rfl

theorem allOf_isSome {α : Type} {xs : List (Option α)} (h : ∀ x ∈ xs, x.isSome = true) :
    (allOf xs).isSome = true := by
  unfold allOf
  rw [if_pos (List.all_eq_true.mpr h)]
  rfl

/-! ## 2. When a call binds -/

theorem arityErrors_eq_nil {op : Operator} {found : Nat} {p : Position} :
    arityErrors op found p = [] ↔ op.arity.accepts found = true := by
  unfold arityErrors
  split <;> simp_all

/-- An operand has a value exactly if it is a literal that the field accepts. -/
theorem operand_eq_some {name : String} {field : Field} {op : CompareOp} {n : Node} {v : Value} :
    (operand name field op n).value = some v ↔
      ∃ literal p, n = .literal literal p ∧ field.coerce op literal = .ok v := by
  cases n with
  | literal literal p =>
    unfold operand
    cases hcoerce : field.coerce op literal <;> simp [hcoerce]
  | call op' args p => simp [operand]
  | field name' p => simp [operand]
  | invalid p => simp [operand]

/-- The predicate of a combinator: that of its arguments' predicates. -/
theorem predicate_combine (schema : Schema) (op : LogicalOp) (args : List Node) (p : Position) :
    (node schema (.call (.combine op) args p)).predicate =
      if (Operator.combine op).arity.accepts args.length then
        (allOf (args.map fun a => (node schema a).predicate)).map (Predicate.combinator op)
      else none := by
  simp only [node_combine, combinator, List.length_map, List.map_map, List.isEmpty_iff,
    arityErrors_eq_nil]
  rfl

/-- A combinator binds exactly if the number of its arguments is accepted and
each of them binds. -/
theorem node_combine_eq_some {schema : Schema} {op : LogicalOp} {args : List Node}
    {p : Position} {q : Predicate} :
    (node schema (.call (.combine op) args p)).predicate = some q ↔
      (Operator.combine op).arity.accepts args.length = true ∧
      ∃ children, List.Forall₂ (fun a q => (node schema a).predicate = some q) args children ∧
        q = .combinator op children := by
  rw [predicate_combine]
  split
  · next harity =>
    simp only [harity, true_and, Option.map_eq_some_iff, allOf_map_eq_some]
    constructor
    · rintro ⟨children, hchildren, rfl⟩
      exact ⟨children, hchildren, rfl⟩
    · rintro ⟨children, hchildren, rfl⟩
      exact ⟨children, hchildren, rfl⟩
  · next harity => simp [harity]

/-- The errors of a combinator: its own, and those of its arguments. -/
theorem errors_combine {schema : Schema} {op : LogicalOp} {args : List Node} {p : Position} :
    (node schema (.call (.combine op) args p)).errors =
      arityErrors (.combine op) args.length p ++
        args.flatMap fun a => (node schema a).errors := by
  rw [node_combine]
  unfold combinator
  simp [List.flatMap_map]

/-- A comparison that names a field is bound by its operands, if their number is right. -/
theorem comparison_of_field {schema : Schema} {name : String} {field : Field}
    (hget : schema.get? name = some field) (op : CompareOp) (fieldPosition : Position)
    (rest : List Node) (p : Position) :
    comparison schema op (.field name fieldPosition :: rest) p =
      if (Operator.compare op).arity.accepts (rest.length + 1) then operands name field op rest
      else ⟨none, arityErrors (.compare op) (rest.length + 1) p⟩ := by
  simp only [comparison, hget]
  split
  · next h => rw [if_pos (arityErrors_eq_nil.mp h)]
  · next h => rw [if_neg fun haccepts => h (arityErrors_eq_nil.mpr haccepts)]

/-- A comparison binds exactly if its first argument names a field, the number
of its arguments is accepted, and each operand has a value in the field. -/
theorem comparison_eq_some {schema : Schema} {op : CompareOp} {args : List Node}
    {p : Position} {q : Predicate} :
    (comparison schema op args p).predicate = some q ↔
      ∃ name fieldPosition rest field values, args = .field name fieldPosition :: rest ∧
        schema.get? name = some field ∧
        (Operator.compare op).arity.accepts (rest.length + 1) = true ∧
        List.Forall₂ (fun n v => ∃ literal p, n = .literal literal p ∧
          field.coerce op literal = .ok v) rest values ∧
        q = .comparison name op values := by
  unfold comparison
  split
  · simp
  · next name fieldPosition rest =>
    split
    · next hget =>
      constructor
      · intro h
        exact absurd h (by simp)
      · rintro ⟨_, _, _, _, _, hargs, hfield, _⟩
        cases hargs
        rw [hget] at hfield
        exact absurd hfield (by simp)
    · next field hget =>
      split
      · next herrors =>
        have harity := arityErrors_eq_nil.mp herrors
        simp only [operands, Option.map_eq_some_iff, List.map_map, allOf_map_eq_some,
          Function.comp_apply, operand_eq_some]
        constructor
        · rintro ⟨values, hvalues, rfl⟩
          exact ⟨name, fieldPosition, rest, field, values, rfl, hget, harity, hvalues, rfl⟩
        · rintro ⟨_, _, _, field', values, hargs, hfield, _, hvalues, rfl⟩
          cases hargs
          rw [hget] at hfield
          cases hfield
          exact ⟨values, hvalues, rfl⟩
      · next herrors =>
        constructor
        · intro h
          exact absurd h (by simp)
        · rintro ⟨_, _, _, _, _, hargs, _, harity, _⟩
          cases hargs
          exact absurd (arityErrors_eq_nil.mpr harity) herrors
  · simp
  · next first _ hfield _ =>
    constructor
    · intro h
      exact absurd h (by simp)
    · rintro ⟨name, fieldPosition, _, _, _, hargs, _⟩
      exact absurd (List.cons.inj hargs).1 (hfield name fieldPosition)

/-- To prove something of every tree that binds and of what it binds to, prove
it of comparisons, and of combinators where it is true of their arguments and
of what these bind to. -/
theorem predicate_induction {schema : Schema} {P : Node → Predicate → Prop}
    (combine : ∀ op args p children, (Operator.combine op).arity.accepts args.length = true →
      List.Forall₂ P args children →
      P (.call (.combine op) args p) (.combinator op children))
    (compare : ∀ op name fieldPosition rest p field values, schema.get? name = some field →
      (Operator.compare op).arity.accepts (rest.length + 1) = true →
      List.Forall₂ (fun n v => ∃ literal p, n = .literal literal p ∧
        field.coerce op literal = .ok v) rest values →
      P (.call (.compare op) (.field name fieldPosition :: rest) p)
        (.comparison name op values)) :
    ∀ {n : Node} {q : Predicate}, (node schema n).predicate = some q → P n q := by
  intro n
  induction n using Node.induction with
  | call op args p ih =>
    intro q h
    cases op with
    | combine op =>
      obtain ⟨harity, children, hchildren, rfl⟩ := node_combine_eq_some.mp h
      exact combine op args p children harity
        (forall₂_of_mem hchildren fun a ha q hbound => ih a ha hbound)
    | compare op =>
      rw [node] at h
      obtain ⟨name, fieldPosition, rest, field, values, rfl, hget, harity, hvalues, rfl⟩ :=
        comparison_eq_some.mp h
      exact compare op name fieldPosition rest p field values hget harity hvalues
  | field name p =>
    intro q h
    exact absurd h (by simp [node])
  | literal value p =>
    intro q h
    exact absurd h (by simp [node])
  | invalid p =>
    intro q h
    exact absurd h (by simp [node])

/-! ## 3. Errors and predicates exclude each other -/

/-- A tree that binds reports nothing. -/
theorem errors_of_predicate {schema : Schema} {n : Node} {q : Predicate}
    (h : (node schema n).predicate = some q) : (node schema n).errors = [] := by
  refine predicate_induction (P := fun n _ => (node schema n).errors = []) ?_ ?_ h
  · intro op args p children harity hargs
    have hnone : ∀ a ∈ args, (node schema a).errors = [] :=
      forall_of_forall₂ hargs.flip fun _ _ _ h => h
    rw [errors_combine, arityErrors_eq_nil.mpr harity, List.nil_append,
      List.flatMap_eq_nil_iff]
    exact hnone
  · intro op name fieldPosition rest p field values hget harity hvalues
    have hnone : ∀ n ∈ rest, (operand name field op n).errors = [] := by
      refine forall_of_forall₂ hvalues.flip ?_
      rintro v _ n ⟨literal, p, rfl, hcoerce⟩
      simp [operand, hcoerce]
    rw [node]
    simp only [comparison, hget, arityErrors_eq_nil.mpr harity, operands,
      List.flatMap_eq_nil_iff, List.forall_mem_map]
    exact hnone

theorem value_of_errors {name : String} {field : Field} {op : CompareOp} {n : Node}
    (hn : n.Intact) (h : (operand name field op n).errors = []) :
    (operand name field op n).value.isSome = true := by
  cases hn with
  | @literal literal p =>
    cases hcoerce : field.coerce op literal with
    | ok v => simp [operand, hcoerce]
    | error expected =>
      rw [operand, hcoerce] at h
      exact absurd h (by simp)
  | field => exact absurd h (by simp [operand])
  | call => exact absurd h (by simp [operand])

/-- A comparison without missing arguments that reports nothing binds. -/
theorem comparison_isSome {schema : Schema} {op : CompareOp} {args : List Node} {p : Position}
    (hargs : ∀ a ∈ args, a.Intact) (h : (comparison schema op args p).errors = []) :
    (comparison schema op args p).predicate.isSome = true := by
  unfold comparison at h ⊢
  split
  · have harity := arityErrors_eq_nil.mp h
    cases op <;> exact absurd harity (by decide)
  · next name fieldPosition rest =>
    split
    · next hget =>
      simp only [hget] at h
      exact absurd h (by simp)
    · next field hget =>
      simp only [hget] at h
      split
      · next herrors =>
        simp only [herrors, operands, List.flatMap_eq_nil_iff, List.forall_mem_map] at h
        simp only [operands, Option.isSome_map]
        refine allOf_isSome ?_
        simp only [List.forall_mem_map]
        intro a ha
        exact value_of_errors (hargs a (List.mem_cons_of_mem _ ha)) (h a ha)
      · next errors herrors =>
        split at h
        · next hnil => exact absurd hnil herrors
        · exact absurd h herrors
  · next p' rest => cases hargs (.invalid p') List.mem_cons_self
  · exact absurd h (by simp)

/-- A tree without missing parts that reports nothing binds. -/
theorem predicate_of_errors {schema : Schema} {n : Node} (hn : n.Intact)
    (h : (node schema n).errors = []) : (node schema n).predicate.isSome = true := by
  induction n using Node.induction with
  | call op args p ih =>
    cases hn with
    | call hargs =>
      cases op with
      | combine op =>
        rw [errors_combine, List.append_eq_nil_iff, List.flatMap_eq_nil_iff] at h
        rw [node_combine]
        have harity : arityErrors (.combine op) (args.map (node schema)).length p = [] := by
          rw [List.length_map]
          exact h.1
        simp only [combinator, harity, List.isEmpty_nil, if_true, Option.isSome_map]
        refine allOf_isSome ?_
        simp only [List.forall_mem_map]
        intro a ha
        exact ih a ha (hargs a ha) (h.2 a ha)
      | compare op => exact comparison_isSome hargs h
  | field name p => exact absurd h (by simp [node])
  | literal value p => exact absurd h (by simp [node])
  | invalid p => cases hn

end Binding

end FilterQuery
