/-
FilterQuery.Operator — the closed vocabulary of operators.

A query calls operators of two kinds. A comparison takes a field and the
values it is compared with; a combinator takes whole predicates. The kind
is part of the operator, so a function on comparisons needs no case for
combinators. The names are matched exactly, upper and lower case apart,
and together with `true`, `false` and `null` they are reserved: none of
them can name a field.
-/

namespace FilterQuery

/-- Operators that compare a field with values. -/
inductive CompareOp where
  | eq
  | ne
  | gt
  | gte
  | lt
  | lte
  /-- Match against a pattern. -/
  | like
  /-- Membership in a list of values. -/
  | oneOf
  | isNull
  | isNotNull
deriving DecidableEq, Repr

/-- Operators that combine predicates. -/
inductive LogicalOp where
  | and
  | or
  | not
deriving DecidableEq, Repr

/-- An operator of the language. -/
inductive Operator where
  | compare (op : CompareOp)
  | combine (op : LogicalOp)
deriving DecidableEq, Repr

/-- The number of arguments an operator takes, its field included. -/
inductive Arity where
  | exactly (n : Nat)
  | atLeast (n : Nat)
deriving DecidableEq, Repr

namespace Arity

/-- The number in the arity. -/
def bound : Arity → Nat
  | exactly n => n
  | atLeast n => n

/-- The word before the number. -/
def qualifier : Arity → String
  | exactly _ => "exactly"
  | atLeast _ => "at least"

/-- Whether a number of arguments is allowed. -/
def accepts : Arity → Nat → Bool
  | exactly n, count => count == n
  | atLeast n, count => n ≤ count

/-- The form shown in messages. -/
def text (a : Arity) : String :=
  a.qualifier ++ " " ++ toString a.bound ++ (if a.bound = 1 then " argument" else " arguments")

end Arity

/-- The name as a query writes it. -/
def CompareOp.name : CompareOp → String
  | eq => "eq"
  | ne => "ne"
  | gt => "gt"
  | gte => "gte"
  | lt => "lt"
  | lte => "lte"
  | like => "like"
  | oneOf => "in"
  | isNull => "isNull"
  | isNotNull => "isNotNull"

/-- Whether `null` may be an operand. It only means something to equality
and membership. -/
def CompareOp.acceptsNull : CompareOp → Bool
  | eq | ne | oneOf => true
  | _ => false

/-- The name as a query writes it. -/
def LogicalOp.name : LogicalOp → String
  | and => "and"
  | or => "or"
  | not => "not"

namespace Operator

/-- Every operator, in the order in which they are listed to users. -/
def all : List Operator :=
  [.compare .eq, .compare .ne, .compare .gt, .compare .gte, .compare .lt, .compare .lte,
   .compare .like, .compare .oneOf, .compare .isNull, .compare .isNotNull,
   .combine .and, .combine .or, .combine .not]

/-- The name as a query writes it. -/
def name : Operator → String
  | compare op => op.name
  | combine op => op.name

/-- The operator of a name. -/
def ofName? (s : String) : Option Operator := all.find? fun op => op.name == s

/-- How many arguments an operator takes. -/
def arity : Operator → Arity
  | compare .oneOf => .atLeast 2
  | compare .isNull | compare .isNotNull => .exactly 1
  | compare _ => .exactly 2
  | combine .not => .exactly 1
  | combine _ => .atLeast 1

/-- The word for the kind of an operator. -/
def kindName : Operator → String
  | compare _ => "comparison"
  | combine _ => "logical"

theorem mem_all (op : Operator) : op ∈ all := by
  cases op with
  | compare op => cases op <;> decide
  | combine op => cases op <;> decide

theorem name_injective {a b : Operator} (h : a.name = b.name) : a = b := by
  have key : ∀ x ∈ all, ∀ y ∈ all, x.name = y.name → x = y := by decide
  exact key a (mem_all a) b (mem_all b) h

/-- Reading a name gives the operator that has it. -/
theorem ofName?_name (op : Operator) : ofName? op.name = some op := by
  cases op with
  | compare op => cases op <;> decide
  | combine op => cases op <;> decide

end Operator

/-- The words of the language that are neither operators nor names. -/
def constantWords : List String := ["true", "false", "null"]

/-- Whether a word is reserved, so that it cannot name a field. -/
def isReserved (s : String) : Bool := constantWords.contains s || (Operator.ofName? s).isSome

end FilterQuery
