/-
FilterQuery.Text.Shown — a string as a message shows it.

Diagnostics name the token they found, and a string token is shown
between double quotes with everything escaped that a reader could not
see or could mistake for the end of the string. This is not the form in
which a query writes a string (`Quoted.quote` is); a single quote needs
no escape here.
-/
import FilterQuery.Text.Hidden

namespace FilterQuery

/-- A number in base sixteen, in lower case. -/
def hexDigits (n : Nat) : List Char := Nat.toDigits 16 n

/-- How one character is shown between double quotes. -/
def showChar (c : Char) : List Char :=
  match c with
  | '"' => ['\\', '"']
  | '\\' => ['\\', '\\']
  | '\n' => ['\\', 'n']
  | '\r' => ['\\', 'r']
  | '\t' => ['\\', 't']
  | '\x00' => ['\\', '0']
  | c => if isHidden c then '\\' :: 'u' :: '\x7b' :: hexDigits c.toNat ++ ['\x7d'] else [c]

/-- A string between double quotes, with hidden characters by number. -/
def showString (s : String) : String :=
  String.ofList ('"' :: s.toList.flatMap showChar ++ ['"'])

end FilterQuery
