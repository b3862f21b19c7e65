/-
FilterQuery.Node.Basic — the call tree of a query.

A query is one operator call whose arguments are calls, field names and
literals. The tree is not checked against anything: an operator may have
any number of arguments and a literal any type. An argument that could
not be read leaves an `invalid` node in its place, so the arguments after
it keep their places; whoever reads the tree may skip such nodes, because
the mistake has been reported already.
-/
import FilterQuery.Token.Basic
import FilterQuery.Text.Quoted

namespace FilterQuery

/-- A literal, before it is given the type of a field. -/
inductive Literal where
  | number (n : Decimal)
  | string (s : String)
  | boolean (b : Bool)
  | null
deriving DecidableEq, Repr

/-- The text of a literal in a query. -/
def Literal.text : Literal → String
  | number n => n.text
  | string s => Quoted.quote s
  | boolean b => if b then "true" else "false"
  | null => "null"

/-- A node of the call tree. -/
inductive Node where
  | call (op : Operator) (args : List Node) (position : Position)
  | field (name : String) (position : Position)
  | literal (value : Literal) (position : Position)
  | invalid (position : Position)
deriving Repr

namespace Node

/-- Where the node begins. -/
def position : Node → Position
  | call _ _ p => p
  | field _ p => p
  | literal _ p => p
  | invalid p => p

/-- Whether the node stands for an argument that could not be read. -/
def isInvalid : Node → Bool
  | invalid _ => true
  | _ => false

/-- What a node is, its arguments and position put aside. -/
inductive Label where
  | call (op : Operator)
  | field (name : String)
  | literal (value : Literal)
  | invalid
deriving DecidableEq, Repr

/-- The label of a node. -/
def label : Node → Label
  | call op _ _ => .call op
  | field name _ => .field name
  | literal value _ => .literal value
  | invalid _ => .invalid

/-- The words for a node in messages. -/
def Label.describe : Label → String
  | call op => "call to '" ++ op.name ++ "'"
  | field name => "field reference '" ++ name ++ "'"
  | literal value => "literal " ++ value.text
  | invalid => "invalid argument"

/-- A node with its depth below the root. -/
abbrev Placed := Nat × Node

mutual

/-- Put the nodes of a tree, each before its arguments, in front of a list
that is kept latest first. -/
def preorderOnto (depth : Nat) (found : List Placed) : Node → List Placed
  | call op args p => preorderListOnto (depth + 1) ((depth, call op args p) :: found) args
  | field name p => (depth, field name p) :: found
  | literal value p => (depth, literal value p) :: found
  | invalid p => (depth, invalid p) :: found

/-- The same for trees that stand side by side. -/
def preorderListOnto (depth : Nat) (found : List Placed) : List Node → List Placed
  | [] => found
  | n :: ns => preorderListOnto depth (preorderOnto depth found n) ns

end

/-- The nodes of a tree in the order of the text, each with its depth. -/
def preorder (n : Node) : List Placed := (preorderOnto 0 [] n).reverse

end Node

end FilterQuery
