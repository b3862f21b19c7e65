/-
FilterQuery.Binding — call trees bound to a schema.

Binding checks everything that reading leaves open: the fields exist,
every operator has the right number of arguments, and every literal has a
value in its field's type. A combinator is bound argument by argument and
collects what is wrong in each of them, in order. A comparison looks at
its field first, then at the number of its arguments, then at each
operand; where one of these fails for the comparison as a whole, the rest
is not looked at.

Nodes that could not be read fail without an error of their own, since
the error has been reported already.
-/
import FilterQuery.Coercion
import FilterQuery.Node.Basic
import FilterQuery.Predicate

namespace FilterQuery

/-- A mistake in the meaning of a query. -/
inductive BindError where
  | unknownField (name : String) (position : Position)
  | wrongArity (op : Operator) (found : Nat) (position : Position)
  | expectedField (found : Node.Label) (position : Position)
  | expectedPredicate (found : Node.Label) (position : Position)
  | expectedValue (found : Node.Label) (position : Position)
  | typeMismatch (field : String) (expected : Expectation) (found : Literal)
      (position : Position)
deriving DecidableEq, Repr

namespace BindError

/-- Where the error is reported. -/
def position : BindError → Position
  | unknownField _ p => p
  | wrongArity _ _ p => p
  | expectedField _ p => p
  | expectedPredicate _ p => p
  | expectedValue _ p => p
  | typeMismatch _ _ _ p => p

/-- The message of the error. -/
def message : BindError → String
  | unknownField name p => "unknown field '" ++ name ++ "' at " ++ p.text
  | wrongArity op found p =>
    "'" ++ op.name ++ "' takes " ++ op.arity.text ++ ", found " ++ toString found ++
      " at " ++ p.text
  | expectedField found p =>
    "expected a field reference, found " ++ found.describe ++ " at " ++ p.text
  | expectedPredicate found p =>
    "expected a predicate, found " ++ found.describe ++ " at " ++ p.text
  | expectedValue found p =>
    "expected a literal value, found " ++ found.describe ++ " at " ++ p.text
  | typeMismatch field expected found p =>
    "cannot compare field '" ++ field ++ "' with " ++ found.text ++ ": expected " ++
      expected.text ++ " at " ++ p.text

end BindError

/-- What binding a tree gives. There is no predicate if any part of the tree
fails. -/
structure Bound where
  predicate : Option Predicate
  errors : List BindError
deriving Repr

/-- What binding an operand gives. -/
structure BoundOperand where
  value : Option Value
  errors : List BindError
deriving Repr

namespace Binding

/-- The error of a wrong number of arguments, if it is wrong. -/
def arityErrors (op : Operator) (found : Nat) (p : Position) : List BindError :=
  if op.arity.accepts found then [] else [.wrongArity op found p]

/-- Bind an operand of a comparison with a field. -/
def operand (name : String) (field : Field) (op : CompareOp) (node : Node) : BoundOperand :=
  match node with
  | .literal value p =>
    match field.coerce op value with
    | .ok v => ⟨some v, []⟩
    | .error expected => ⟨none, [.typeMismatch name expected value p]⟩
  | .invalid _ => ⟨none, []⟩
  | node => ⟨none, [.expectedValue node.label node.position]⟩

/-- All of some values, if all of them are there. -/
def allOf {α : Type} (xs : List (Option α)) : Option (List α) :=
  if xs.all Option.isSome then some (xs.filterMap id) else none

/-- Bind the operands of a comparison with a field. -/
def operands (name : String) (field : Field) (op : CompareOp) (nodes : List Node) : Bound :=
  let bound := nodes.map (operand name field op)
  { predicate := (allOf (bound.map (·.value))).map fun values => .comparison name op values
    errors := bound.flatMap (·.errors) }

/-- Bind a comparison. -/
def comparison (schema : Schema) (op : CompareOp) (args : List Node) (p : Position) : Bound :=
  match args with
  | [] => ⟨none, arityErrors (.compare op) 0 p⟩
  | .field name fieldPosition :: rest =>
    match schema.get? name with
    | none => ⟨none, [.unknownField name fieldPosition]⟩
    | some field =>
      match arityErrors (.compare op) (rest.length + 1) p with
      | [] => operands name field op rest
      | errors => ⟨none, errors⟩
  | .invalid _ :: _ => ⟨none, []⟩
  | node :: _ => ⟨none, [.expectedField node.label node.position]⟩

/-- Bind a combinator, given what binding its arguments gives. -/
def combinator (op : LogicalOp) (args : List Bound) (p : Position) : Bound :=
  let arity := arityErrors (.combine op) args.length p
  { predicate :=
      if arity.isEmpty then (allOf (args.map (·.predicate))).map (.combinator op) else none
    errors := arity ++ args.flatMap (·.errors) }

mutual

/-- Bind a node where a predicate is asked for. -/
def node (schema : Schema) : Node → Bound
  | .call (.combine op) args p => combinator op (nodes schema [] args) p
  | .call (.compare op) args p => comparison schema op args p
  | .field name p => ⟨none, [.expectedPredicate (.field name) p]⟩
  | .literal value p => ⟨none, [.expectedPredicate (.literal value) p]⟩
  | .invalid _ => ⟨none, []⟩

/-- Bind nodes where predicates are asked for. `done` holds what binding the
nodes before them gave, latest first. -/
def nodes (schema : Schema) (done : List Bound) : List Node → List Bound
  | [] => done.reverse
  | n :: ns => nodes schema (node schema n :: done) ns

end

theorem nodes_eq (schema : Schema) (done : List Bound) (ns : List Node) :
    nodes schema done ns = done.reverse ++ ns.map (node schema) := by
  induction ns generalizing done with
  | nil => simp [nodes]
  | cons n ns ih => simp [nodes, ih]

/-- A combinator is bound by binding its arguments one by one. -/
theorem node_combine (schema : Schema) (op : LogicalOp) (args : List Node) (p : Position) :
    node schema (.call (.combine op) args p) = combinator op (args.map (node schema)) p := by
  rw [node, nodes_eq]
  simp

end Binding

/-- Bind a call tree to a schema. -/
def Schema.bind (schema : Schema) (tree : Node) : Bound := Binding.node schema tree

end FilterQuery
