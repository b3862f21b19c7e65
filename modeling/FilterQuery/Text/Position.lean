/-
FilterQuery.Text.Position — where a character stands in a query text.

A position holds three numbers that every diagnostic shows or hands on:
the byte offset in the UTF-8 text, and the line and column for a reader.
All three are functions of the text before the character, and `after`
is that function: the position of a prefix is `Position.start.after`
applied to its characters. Nothing else in the library computes an
offset, so a position can only be wrong if the characters before it are.
-/

namespace FilterQuery

/-- A location in a query text. `offset` counts bytes of the UTF-8 form
from 0, `line` and `column` count from 1, columns in characters. -/
structure Position where
  offset : Nat
  line : Nat
  column : Nat
deriving DecidableEq, Repr

namespace Position

/-- The position of the first character. -/
def start : Position := ⟨0, 1, 1⟩

/-- The position just past a character that stands at `p`. Only a line
feed ends a line. -/
def advance (p : Position) (c : Char) : Position :=
  if c = '\n' then ⟨p.offset + c.utf8Size, p.line + 1, 1⟩
  else ⟨p.offset + c.utf8Size, p.line, p.column + 1⟩

/-- The position just past a run of characters that begins at `p`. -/
def after (p : Position) (cs : List Char) : Position := cs.foldl advance p

@[simp] theorem after_nil (p : Position) : p.after [] = p := rfl

@[simp] theorem after_cons (p : Position) (c : Char) (cs : List Char) :
    p.after (c :: cs) = (p.advance c).after cs := rfl

theorem after_append (p : Position) (xs ys : List Char) :
    p.after (xs ++ ys) = (p.after xs).after ys := by
  simp [after, List.foldl_append]

/-- The form shown in messages, `line:column`. -/
def text (p : Position) : String := toString p.line ++ ":" ++ toString p.column

end Position

end FilterQuery
