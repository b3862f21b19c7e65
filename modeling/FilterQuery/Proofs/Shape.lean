/-
FilterQuery.Proofs.Shape — call trees and predicates as trees.

Both types hold lists of themselves, so each gets the induction principle
that hands over the hypothesis for every member of the list
(`Node.induction`, `Predicate.induction`), and its measure of height is
characterised by "at most k" over the members (`Node.nestingAmong_le_iff`,
`Predicate.depthAmong_le_iff`), which is the form in which a limit is
compared with it.

Where two trees go side by side, their lists of members do too
(`List.Forall₂`); three facts about that are stated here for the members at
hand only, which is what an induction hypothesis is about.
-/
import Mathlib.Data.List.Forall2
import FilterQuery.Node.Basic
import FilterQuery.Predicate

namespace FilterQuery

/-! ## 1. Lists side by side -/

theorem forall₂_of_mem {α β : Type} {R S : α → β → Prop} {xs : List α} {ys : List β}
    (h : List.Forall₂ R xs ys) (himp : ∀ x ∈ xs, ∀ y, R x y → S x y) : List.Forall₂ S xs ys := by
  induction h with
  | nil => exact .nil
  | cons hR _ ih =>
    refine .cons (himp _ List.mem_cons_self _ hR) (ih ?_)
    intro x hx
    exact himp x (List.mem_cons_of_mem _ hx)

/-- What follows for the one side from what each of the other side says. -/
theorem forall_of_forall₂ {α β : Type} {R : α → β → Prop} {Q : β → Prop} {xs : List α}
    {ys : List β} (h : List.Forall₂ R xs ys) (himp : ∀ x ∈ xs, ∀ y, R x y → Q y) :
    ∀ y ∈ ys, Q y := by
  induction h with
  | nil => simp
  | cons hR _ ih =>
    refine List.forall_mem_cons.mpr ⟨himp _ List.mem_cons_self _ hR, ih ?_⟩
    intro x hx
    exact himp x (List.mem_cons_of_mem _ hx)

/-- Lists are the same if their members are, side by side. -/
theorem eq_of_forall₂_of_mem {α : Type} {R : α → α → Prop} {xs ys : List α}
    (h : List.Forall₂ R xs ys) (himp : ∀ x ∈ xs, ∀ y ∈ ys, R x y → x = y) : xs = ys := by
  induction h with
  | nil => rfl
  | cons hR _ ih =>
    rw [himp _ List.mem_cons_self _ List.mem_cons_self hR, ih]
    intro x hx y hy
    exact himp x (List.mem_cons_of_mem _ hx) y (List.mem_cons_of_mem _ hy)

/-! ## 2. Call trees -/

namespace Node

/-- To prove something of every node, prove it of a call whose arguments have
it, and of the nodes without arguments. -/
@[elab_as_elim]
theorem induction {P : Node → Prop}
    (call : ∀ op args p, (∀ a ∈ args, P a) → P (.call op args p))
    (field : ∀ name p, P (.field name p)) (literal : ∀ value p, P (.literal value p))
    (invalid : ∀ p, P (.invalid p)) : ∀ n : Node, P n
  | .call op args p => call op args p fun a _ => induction call field literal invalid a
  | .field name p => field name p
  | .literal value p => literal value p
  | .invalid p => invalid p

/-- No argument anywhere in the tree is missing. -/
inductive Intact : Node → Prop
  | call {op : Operator} {args : List Node} {p : Position} (intact : ∀ a ∈ args, a.Intact) :
      Intact (.call op args p)
  | field {name : String} {p : Position} : Intact (.field name p)
  | literal {value : Literal} {p : Position} : Intact (.literal value p)

theorem Intact.isInvalid_eq_false {n : Node} (h : n.Intact) : n.isInvalid = false := by
  cases h <;> rfl

mutual

/-- How many calls are nested in each other. -/
def nesting : Node → Nat
  | call _ args _ => nestingAmong args + 1
  | field _ _ => 0
  | literal _ _ => 0
  | invalid _ => 0

/-- The greatest nesting of some nodes. -/
def nestingAmong : List Node → Nat
  | [] => 0
  | n :: ns => max n.nesting (nestingAmong ns)

end

theorem nestingAmong_le_iff {ns : List Node} {k : Nat} :
    nestingAmong ns ≤ k ↔ ∀ n ∈ ns, n.nesting ≤ k := by
  induction ns with
  | nil => simp [nestingAmong]
  | cons n ns ih => rw [nestingAmong, Nat.max_le, ih, List.forall_mem_cons]

end Node

/-! ## 3. Predicates -/

namespace Predicate

/-- To prove something of every predicate, prove it of comparisons, and of
combinators whose children have it. -/
@[elab_as_elim]
theorem induction {P : Predicate → Prop}
    (comparison : ∀ field op values, P (.comparison field op values))
    (combinator : ∀ op children, (∀ p ∈ children, P p) → P (.combinator op children)) :
    ∀ p : Predicate, P p
  | .comparison field op values => comparison field op values
  | .combinator op children =>
    combinator op children fun p _ => induction comparison combinator p

theorem depthAmong_le_iff {most k : Nat} {ps : List Predicate} :
    depthAmong most ps ≤ k ↔ most ≤ k ∧ ∀ p ∈ ps, p.depth ≤ k := by
  induction ps generalizing most with
  | nil => simp [depthAmong]
  | cons p ps ih => rw [depthAmong, ih, Nat.max_le, List.forall_mem_cons, and_assoc]

end Predicate

end FilterQuery
