/-
FilterQuery.Predicate — bound filter conditions.

A predicate is what a query means to a schema: comparisons of fields with
values, combined by and, or and not. It can be written back as a query
(`text`) and handed on as JSON (`toJson`).

A predicate may have any number of operands and children; the numbers
that make sense are a matter of binding, not of this type.
-/
import FilterQuery.Operator
import FilterQuery.Value

namespace FilterQuery

/-- A filter condition. -/
inductive Predicate where
  | comparison (field : String) (op : CompareOp) (values : List Value)
  | combinator (op : LogicalOp) (children : List Predicate)
deriving Repr

namespace Predicate

/-- The operand of a comparison that has exactly one. -/
def value? : Predicate → Option Value
  | comparison _ _ [v] => some v
  | _ => none

mutual

/-- The number of levels; a comparison has one. -/
def depth : Predicate → Nat
  | comparison _ _ _ => 1
  | combinator _ children => 1 + depthAmong 0 children

/-- The greatest number of levels of some predicates, or `most` if that is
greater. -/
def depthAmong (most : Nat) : List Predicate → Nat
  | [] => most
  | p :: ps => depthAmong (max most p.depth) ps

end

/-! ## As a query -/

/-- The text of a comparison. -/
def comparisonText (field : String) (op : CompareOp) (values : List Value) : String :=
  op.name ++ "(" ++ String.intercalate ", " (field :: values.map Value.text) ++ ")"

mutual

/-- Write a predicate behind `out`. -/
def textOnto (out : String) : Predicate → String
  | comparison field op values => out ++ comparisonText field op values
  | combinator op children => (textsOnto (out ++ op.name ++ "(") true children).push ')'

/-- Write children behind `out`, with commas in between; `first` tells
whether none has been written. -/
def textsOnto (out : String) (first : Bool) : List Predicate → String
  | [] => out
  | p :: ps => textsOnto (textOnto (if first then out else out ++ ", ") p) false ps

end

/-- The text of a predicate as a query. -/
def text (p : Predicate) : String := textOnto "" p

/-! ## As JSON -/

/-- A comparison as JSON. Which operands are written, and how, depends on the
operator alone. -/
def comparisonJson (field : String) (op : CompareOp) (values : List Value) : Json :=
  let field := ("field", Json.string field)
  let name := ("op", Json.string op.name)
  match op with
  | .isNull | .isNotNull => .object [field, name]
  | .oneOf => .object [field, name, ("values", .array (values.map Value.toJson))]
  | _ => .object [field, name, ("value", (values.head?.map Value.toJson).getD .null)]

/-- A combination as JSON, given its children as JSON. -/
def combinatorJson (op : LogicalOp) (children : List Json) : Json :=
  match op, children with
  | .not, [child] => .object [("child", child), ("op", .string op.name)]
  | _, _ => .object [("children", .array children), ("op", .string op.name)]

mutual

/-- A predicate as JSON. -/
def toJson : Predicate → Json
  | comparison field op values => comparisonJson field op values
  | combinator op children => combinatorJson op (toJsons [] children)

/-- Some predicates as JSON, behind those already written, latest first. -/
def toJsons (done : List Json) : List Predicate → List Json
  | [] => done.reverse
  | p :: ps => toJsons (p.toJson :: done) ps

end

/-! ## Comparing -/

/-- Whether two lists of values are the same, numbers compared as numbers. -/
def sameValues (vs ws : List Value) : Bool :=
  vs.length == ws.length && (vs.zip ws).all fun (v, w) => v.same w

mutual

/-- Whether two predicates are the same, numbers compared as numbers. -/
def same : Predicate → Predicate → Bool
  | comparison f op vs, comparison g op' ws => f == g && op == op' && sameValues vs ws
  | combinator op ps, combinator op' qs => op == op' && sames ps qs
  | _, _ => false

/-- Whether two lists of predicates are the same. -/
def sames : List Predicate → List Predicate → Bool
  | [], [] => true
  | p :: ps, q :: qs => p.same q && sames ps qs
  | _, _ => false

end

end Predicate

end FilterQuery
