/-
FilterQuery.Token.Basic — tokens of a query text.

A token is what was read, the text it was read from and where that text
begins. The kind carries the value: an exact decimal, a string with its
escapes resolved, a name or an operator.
-/
import FilterQuery.Decimal.Basic
import FilterQuery.Operator
import FilterQuery.Text.Position
import FilterQuery.Text.Shown

namespace FilterQuery

namespace Token

/-- What a token is, with its value. -/
inductive Kind where
  | number (n : Decimal)
  | string (s : String)
  | boolean (b : Bool)
  | null
  /-- A name: a field, or an operator that the language does not have. -/
  | identifier (name : String)
  | operator (op : Operator)
  | openParen
  | closeParen
  | comma
deriving DecidableEq, Repr

namespace Kind

/-- The form shown in messages. -/
def text : Kind → String
  | number n => "number " ++ n.text
  | string s => "string " ++ showString s
  | boolean b => if b then "boolean true" else "boolean false"
  | null => "null"
  | identifier name => "identifier '" ++ name ++ "'"
  | operator op => "operator '" ++ op.name ++ "'"
  | openParen => "'('"
  | closeParen => "')'"
  | comma => "','"

/-- Whether two kinds are the same with their values put aside. -/
def sameShape : Kind → Kind → Bool
  | number _, number _ => true
  | string _, string _ => true
  | boolean _, boolean _ => true
  | null, null => true
  | identifier _, identifier _ => true
  | operator _, operator _ => true
  | openParen, openParen => true
  | closeParen, closeParen => true
  | comma, comma => true
  | _, _ => false

/-- The kind of a word. -/
def ofWord (w : String) : Kind :=
  if w = "true" then .boolean true
  else if w = "false" then .boolean false
  else if w = "null" then .null
  else match Operator.ofName? w with
    | some op => .operator op
    | none => .identifier w

end Kind

end Token

/-- A token of a query text. -/
structure Token where
  kind : Token.Kind
  /-- The text of the token, quotes and escapes included. -/
  lexeme : String
  position : Position
deriving DecidableEq, Repr

end FilterQuery
