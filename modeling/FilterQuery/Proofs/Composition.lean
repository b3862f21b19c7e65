/-
FilterQuery.Proofs.Composition — a combinator means what its arguments
mean, and is blamed for what they are blamed for.

What a tree gives when it is bound is put together from what its arguments
give when each of them is bound alone (`Schema.bind_composes`): the errors
are those of the arguments, one after the other, behind the call's own, and
the predicate is the combinator of theirs. An argument that fails has no
influence on what is said of the others.

Binding can also be done in one pass that puts all reports on one list and
throws the predicate away at the end if there is any (`bindInOnePass`).
Then it is no longer plain that a report never depends on those before it.
It does not: a pass only ever adds to the list, and it adds what the tree
is blamed for alone (`pass_adds`). Nor does the list at the end ever take a
predicate away, since a tree that binds reports nothing.

The only thing that fails without a word is a node that could not be read
(`exists_invalid_of_silent`).
-/
import FilterQuery.Proofs.Typing

namespace FilterQuery

/-! ## 1. Binding in one pass -/

namespace Binding

/-- A step of binding that may add reports to a list. -/
abbrev Reporting (α : Type) := StateM (List BindError) α

/-- Put reports behind those that are there. -/
def report (es : List BindError) : Reporting Unit := modify (· ++ es)

/-- Look at the number of arguments, and report it if it is wrong. -/
def passArity (op : Operator) (found : Nat) (p : Position) : Reporting Bool := do
  if op.arity.accepts found then
    return true
  report [.wrongArity op found p]
  return false

/-- Take in operands one by one. One that has no value does not keep the next from being
looked at. -/
def passOperands (name : String) (field : Field) (op : CompareOp) :
    List Node → Reporting (Option (List Value))
  | [] => return some []
  | n :: ns => do
    let bound := operand name field op n
    report bound.errors
    let values ← passOperands name field op ns
    return bound.value.bind fun v => values.map (v :: ·)

/-- Bind a comparison, up to the first thing that is wrong with it as a whole. -/
def passComparison (schema : Schema) (op : CompareOp) (args : List Node) (p : Position) :
    Reporting (Option Predicate) := do
  match args with
  | [] =>
    let _ ← passArity (.compare op) 0 p
    return none
  | .field name fieldPosition :: rest =>
    match schema.get? name with
    | none =>
      report [.unknownField name fieldPosition]
      return none
    | some field =>
      if ← passArity (.compare op) (rest.length + 1) p then
        let values ← passOperands name field op rest
        return values.map fun vs => .comparison name op vs
      return none
  | .invalid _ :: _ => return none
  | n :: _ =>
    report [.expectedField n.label n.position]
    return none

mutual

/-- Bind a node where a predicate is asked for. -/
def pass (schema : Schema) : Node → Reporting (Option Predicate)
  | .call (.combine op) args p => do
    let accepted ← passArity (.combine op) args.length p
    -- the arguments are looked at even if their number is wrong
    let children ← passAll schema args
    return if accepted then (allOf children).map (.combinator op) else none
  | .call (.compare op) args p => passComparison schema op args p
  | .field name p => do
    report [.expectedPredicate (.field name) p]
    return none
  | .literal value p => do
    report [.expectedPredicate (.literal value) p]
    return none
  | .invalid _ => return none

/-- Bind nodes one after the other, also behind one that fails. -/
def passAll (schema : Schema) : List Node → Reporting (List (Option Predicate))
  | [] => return []
  | n :: ns => do
    let q ← pass schema n
    let qs ← passAll schema ns
    return q :: qs

end

end Binding

/-- Bind a tree in one pass. There is a predicate only if nothing has been reported. -/
def Schema.bindInOnePass (schema : Schema) (tree : Node) : Bound :=
  let (predicate, errors) := (Binding.pass schema tree).run []
  { predicate := predicate.filter fun _ => errors.isEmpty
    errors := errors }

/-! ## 2. A pass only adds to the list -/

namespace Binding

/-- Whether a step has a result and adds reports, whatever has been reported before. -/
def Adds {α : Type} (step : Reporting α) (result : α) (es : List BindError) : Prop :=
  ∀ before, step.run before = (result, before ++ es)

namespace Adds

variable {α β : Type}

theorem pure (a : α) : Adds (Pure.pure a) a [] := fun before =>
  Prod.ext rfl (List.append_nil before).symm

theorem report (es : List BindError) : Adds (Binding.report es) () es := fun _ => rfl

/-- What a step adds comes behind what the step before it has added. -/
theorem bind {step : Reporting α} {next : α → Reporting β} {a : α} {b : β}
    {es fs : List BindError} (hstep : Adds step a es) (hnext : Adds (next a) b fs) :
    Adds (step >>= next) b (es ++ fs) := by
  intro before
  rw [StateT.run_bind, hstep before]
  exact (hnext (before ++ es)).trans (by rw [List.append_assoc])

/-- Behind the last report a step may go on. -/
theorem last {step : Reporting α} {next : α → Reporting β} {a : α} {b : β} {es : List BindError}
    (hstep : Adds step a es) (hnext : Adds (next a) b []) : Adds (step >>= next) b es := by
  have hbind := hstep.bind hnext
  rwa [List.append_nil] at hbind

theorem map {step : Reporting α} {a : α} {es : List BindError} (h : Adds step a es) (f : α → β) :
    Adds (do return f (← step)) (f a) es := h.last (pure (f a))

end Adds

theorem passArity_adds (op : Operator) (found : Nat) (p : Position) :
    Adds (passArity op found p) (op.arity.accepts found) (arityErrors op found p) := by
  unfold passArity arityErrors
  split
  · next h =>
    rw [h]
    exact .pure true
  · next h =>
    rw [Bool.eq_false_iff.mpr h]
    exact (Adds.report _).map fun _ => false

theorem passOperands_adds (name : String) (field : Field) (op : CompareOp) (ns : List Node) :
    Adds (passOperands name field op ns) (allOf (ns.map fun n => (operand name field op n).value))
      (ns.flatMap fun n => (operand name field op n).errors) := by
  induction ns with
  | nil => exact .pure (some [])
  | cons n ns ih =>
    rw [List.map_cons, allOf_cons, List.flatMap_cons]
    exact (Adds.report _).bind (ih.map fun values =>
      (operand name field op n).value.bind fun v => values.map (v :: ·))

theorem passComparison_adds (schema : Schema) (op : CompareOp) (args : List Node)
    (p : Position) : Adds (passComparison schema op args p) (comparison schema op args p).predicate
      (comparison schema op args p).errors := by
  cases args with
  | nil => exact (passArity_adds (.compare op) 0 p).map fun _ => none
  | cons n rest =>
    cases n with
    | field name fieldPosition =>
      cases hget : schema.get? name with
      | none =>
        simp only [passComparison, comparison, hget]
        exact (Adds.report _).map fun _ => none
      | some field =>
        rw [comparison_of_field hget]
        simp only [passComparison, hget]
        have harity := passArity_adds (.compare op) (rest.length + 1) p
        cases haccepts : (Operator.compare op).arity.accepts (rest.length + 1) with
        | true =>
          rw [haccepts, arityErrors_eq_nil.mpr haccepts] at harity
          have hoperands := (passOperands_adds name field op rest).map fun values =>
            values.map fun vs => Predicate.comparison name op vs
          simp only [if_true, operands, List.map_map, List.flatMap_map]
          exact harity.bind hoperands
        | false =>
          rw [haccepts] at harity
          exact harity.last (.pure none)
    | invalid p' => exact .pure none
    | literal value p' => exact (Adds.report _).map fun _ => none
    | call op' args' p' => exact (Adds.report _).map fun _ => none

mutual

/-- **A pass adds what binding the tree alone reports**, and has the same predicate. -/
theorem pass_adds (schema : Schema) :
    ∀ n, Adds (pass schema n) (node schema n).predicate (node schema n).errors
  | .call (.combine op) args p => by
    rw [predicate_combine, errors_combine, pass]
    exact (passArity_adds (.combine op) args.length p).bind
      ((passAll_adds schema args).map fun children =>
        if (Operator.combine op).arity.accepts args.length then
          (allOf children).map (Predicate.combinator op) else none)
  | .call (.compare op) args p => passComparison_adds schema op args p
  | .field name p => (Adds.report _).map fun _ => none
  | .literal value p => (Adds.report _).map fun _ => none
  | .invalid _ => .pure none

theorem passAll_adds (schema : Schema) :
    ∀ ns, Adds (passAll schema ns) (ns.map fun n => (node schema n).predicate)
      (ns.flatMap fun n => (node schema n).errors)
  | [] => .pure []
  | n :: ns => (pass_adds schema n).bind ((passAll_adds schema ns).map fun qs => _ :: qs)

end

end Binding

/-- **Binding in one pass gives the same.** Nothing that has been reported before has an
influence on what is reported next, and no predicate is thrown away at the end. -/
theorem Schema.bindInOnePass_eq (schema : Schema) (n : Node) :
    schema.bindInOnePass n = schema.bind n := by
  have hrun : (Binding.pass schema n).run [] =
      ((schema.bind n).predicate, (schema.bind n).errors) := Binding.pass_adds schema n []
  simp only [bindInOnePass, hrun]
  cases hpredicate : (schema.bind n).predicate with
  | none => rw [Option.filter_none, ← hpredicate]
  | some q =>
    have herrors : (schema.bind n).errors = [] := Binding.errors_of_predicate hpredicate
    have hbind : schema.bind n = ⟨some q, []⟩ := by rw [← hpredicate, ← herrors]
    rw [hbind]
    rfl

/-! ## 3. Nodes that could not be read -/

namespace Node

theorem preorderListOnto_intact {ns : List Node}
    (h : ∀ n ∈ ns, ∀ depth found, (∀ x ∈ preorderOnto depth found n, x.2.isInvalid = false) ↔
      n.Intact ∧ ∀ x ∈ found, x.2.isInvalid = false) (depth : Nat) (found : List Placed) :
    (∀ x ∈ preorderListOnto depth found ns, x.2.isInvalid = false) ↔
      (∀ n ∈ ns, n.Intact) ∧ ∀ x ∈ found, x.2.isInvalid = false := by
  induction ns generalizing found with
  | nil => simp [preorderListOnto]
  | cons n ns ih =>
    rw [preorderListOnto, ih (fun m hm => h m (List.mem_cons_of_mem n hm)),
      h n List.mem_cons_self, List.forall_mem_cons, and_assoc, and_left_comm]

theorem preorderOnto_intact (n : Node) (depth : Nat) (found : List Placed) :
    (∀ x ∈ preorderOnto depth found n, x.2.isInvalid = false) ↔
      n.Intact ∧ ∀ x ∈ found, x.2.isInvalid = false := by
  induction n using Node.induction generalizing depth found with
  | call op args p ih =>
    have hintact : (call op args p).Intact ↔ ∀ a ∈ args, a.Intact :=
      ⟨fun h => by cases h; assumption, .call⟩
    rw [preorderOnto, preorderListOnto_intact ih, List.forall_mem_cons, hintact]
    simp [isInvalid]
  | field name p => simp [preorderOnto, isInvalid, Intact.field]
  | literal value p => simp [preorderOnto, isInvalid, Intact.literal]
  | invalid p =>
    have hintact : ¬(invalid p).Intact := by rintro ⟨⟩
    simp [preorderOnto, isInvalid, hintact]

/-- A tree has nothing missing if none of its nodes is one that could not be read. -/
theorem intact_iff {n : Node} : n.Intact ↔ ∀ x ∈ n.preorder, x.2.isInvalid = false := by
  have h := n.preorderOnto_intact 0 []
  simp only [preorder, List.mem_reverse, h]
  simp

end Node

/-! ## 4. Trees that bind -/

/-- A tree that binds has nothing missing. -/
theorem intact_of_bind {schema : Schema} {n : Node} {q : Predicate}
    (h : (schema.bind n).predicate = some q) : n.Intact := by
  refine Binding.predicate_induction (P := fun n _ => n.Intact) ?_ ?_ h
  · intro op args p children _ hargs
    exact .call (forall_of_forall₂ hargs.flip fun _ _ _ ha => ha)
  · intro op name fieldPosition rest p field values _ _ hvalues
    refine .call (List.forall_mem_cons.mpr ⟨.field, forall_of_forall₂ hvalues.flip ?_⟩)
    rintro v _ n ⟨literal, p, rfl, _⟩
    exact .literal

/-- A tree that fails without a word has a node that could not be read. -/
theorem exists_invalid_of_silent {schema : Schema} {n : Node}
    (hnone : (schema.bind n).predicate = none) (herrors : (schema.bind n).errors = []) :
    ∃ x ∈ n.preorder, x.2.isInvalid = true := by
  by_contra hvalid
  have hintact : n.Intact := by
    rw [Node.intact_iff]
    intro x hx
    exact Bool.eq_false_iff.mpr fun hinvalid => hvalid ⟨x, hx, hinvalid⟩
  have hsome := Binding.predicate_of_errors hintact herrors
  rw [show (Binding.node schema n).predicate = none from hnone] at hsome
  cases hsome

/-! ## 5. The law -/

/-- **Binding is put together from the arguments, and blames all there is to blame**,
whatever the schema and the tree are:

* one pass with one list of reports gives the same as binding part by part;
* a combinator reports that it has a wrong number of arguments, if it has, and then
  all that its arguments report alone, in order, whether or not others of them fail;
* it has a predicate exactly if the number of its arguments is accepted and each of them
  alone has one, and then that is the combinator of theirs, in order;
* a tree that binds reports nothing, no node of it is missing, and its predicate has as
  many levels as it has nested calls;
* a tree that does not bind and reports nothing has a node that could not be read. -/
theorem Schema.bind_composes (schema : Schema) :
    (∀ n, schema.bindInOnePass n = schema.bind n) ∧
    (∀ op args p,
      (schema.bind (.call (.combine op) args p)).errors =
          (if (Operator.combine op).arity.accepts args.length then []
            else [.wrongArity (.combine op) args.length p]) ++
            args.flatMap (fun a => (schema.bind a).errors) ∧
        (schema.bind (.call (.combine op) args p)).predicate =
          if (Operator.combine op).arity.accepts args.length ∧
              ∀ a ∈ args, (schema.bind a).predicate.isSome then
            some (.combinator op (args.filterMap fun a => (schema.bind a).predicate))
          else none) ∧
    (∀ n q, (schema.bind n).predicate = some q →
      (schema.bind n).errors = [] ∧ (∀ x ∈ n.preorder, x.2.isInvalid = false) ∧
        q.depth = n.nesting) ∧
    ∀ n, (schema.bind n).predicate = none → (schema.bind n).errors = [] →
      ∃ x ∈ n.preorder, x.2.isInvalid = true := by
  refine ⟨schema.bindInOnePass_eq, ?_, ?_, fun n => exists_invalid_of_silent⟩
  · intro op args p
    refine ⟨Binding.errors_combine, (Binding.predicate_combine schema op args p).trans ?_⟩
    rw [Binding.allOf_map, ite_and]
    split
    · exact apply_ite _ _ _ _
    · rfl
  · intro n q h
    exact ⟨Binding.errors_of_predicate h, Node.intact_iff.mp (intact_of_bind h),
      depth_eq_of_bind h⟩

/-- `not(gt(age, '3'))` binds. Beside an argument that could not be read it no longer
counts, and nothing is said. -/
theorem Schema.bind_composes_of_missing :
    let schema := Schema.empty.insert "age" ⟨.number, false⟩
    let good := Node.call (.combine .not) [.call (.compare .gt)
      [.field "age" ⟨7, 1, 8⟩, .literal (.string "3") ⟨12, 1, 13⟩] ⟨4, 1, 5⟩] ⟨0, 1, 1⟩
    let silent := Node.call (.combine .and) [good, .invalid ⟨18, 1, 19⟩] ⟨0, 1, 1⟩
    let q := Predicate.combinator .not [.comparison "age" .gt [.integer 3]]
    ((schema.bind good).predicate = some q ∧ (schema.bind good).errors = [] ∧
      (∀ x ∈ good.preorder, x.2.isInvalid = false) ∧ q.depth = good.nesting) ∧
    (schema.bind silent).predicate = none ∧ (schema.bind silent).errors = [] ∧
      ∃ x ∈ silent.preorder, x.2.isInvalid = true := by
  intro schema good silent q
  obtain ⟨_, _, hbound, hsilent⟩ := Schema.bind_composes schema
  have hgood : (schema.bind good).predicate = some q := rfl
  exact ⟨⟨hgood, hbound good q hgood⟩, rfl, rfl, hsilent silent rfl rfl⟩

end FilterQuery
