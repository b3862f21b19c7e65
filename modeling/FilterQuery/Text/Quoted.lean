/-
FilterQuery.Text.Quoted — string literals of the query language.

A string literal stands between two equal quotes, single or double.
Inside it a backslash and the character after it are read together: five
such pairs are escapes of the language, and any other pair is a mistake
whose character is kept. The body of a literal is therefore a list of
`Piece`s, one for each character it denotes, and each piece knows how it
was written. `scan` cuts the pieces off the front of a text; `quote` is
the single-quoted form in which values are written back.
-/
import FilterQuery.Text.Position

namespace FilterQuery

namespace Quoted

/-- One character of a string literal, as it was written. -/
inductive Piece where
  | plain (c : Char)
  | escaped (c : Char)
deriving DecidableEq, Repr

/-- The character that stands for `c` after a backslash, if the language
has such an escape. -/
def escapeValue? : Char → Option Char
  | 'n' => some '\n'
  | 't' => some '\t'
  | 'r' => some '\r'
  | '\'' => some '\''
  | '"' => some '"'
  | '\\' => some '\\'
  | _ => none

namespace Piece

/-- The text of the piece. -/
def source : Piece → List Char
  | plain c => [c]
  | escaped c => ['\\', c]

/-- The character the piece denotes. A pair that is no escape denotes its
second character. -/
def value : Piece → Char
  | plain c => c
  | escaped c => (escapeValue? c).getD c

/-- The second character of a pair that is no escape. -/
def badEscape? : Piece → Option Char
  | plain _ => none
  | escaped c => if (escapeValue? c).isSome then none else some c

end Piece

/-- What follows an opening quote: the pieces up to the closing quote and
the text after it, or the pieces up to the end of the text and, where the
text ends in a lone backslash, that backslash. -/
inductive Scan where
  | closed (pieces : List Piece) (rest : List Char)
  | unclosed (pieces : List Piece) (leftover : List Char)
deriving Repr

/-- Cut the body of a literal off the front of a text. `done` holds the
pieces already read, latest first. -/
def scan (quote : Char) (done : List Piece) : List Char → Scan
  | [] => .unclosed done.reverse []
  | c :: cs =>
    if c = quote then .closed done.reverse cs
    else if c = '\\' then
      match cs with
      | [] => .unclosed done.reverse [c]
      | e :: rest => scan quote (.escaped e :: done) rest
    else scan quote (.plain c :: done) cs

/-- The text of a list of pieces. -/
def source (ps : List Piece) : List Char := ps.flatMap Piece.source

/-- The string that a list of pieces denotes. -/
def value (ps : List Piece) : String := String.ofList (ps.map Piece.value)

/-- The pairs that are no escapes, each with the position of its backslash,
for pieces that begin at `origin`. -/
def badEscapes (origin : Position) (ps : List Piece) : List (Char × Position) :=
  (ps.foldl (fun (found, p) piece =>
    let found := match piece.badEscape? with
      | some c => (c, p) :: found
      | none => found
    (found, p.after piece.source)) (([] : List (Char × Position)), origin)).1.reverse

/-- How a character is written between single quotes. -/
def escape : Char → List Char
  | '\'' => ['\\', '\'']
  | '\\' => ['\\', '\\']
  | '\n' => ['\\', 'n']
  | '\t' => ['\\', 't']
  | '\r' => ['\\', 'r']
  | c => [c]

/-- A string as a single-quoted literal. -/
def quote (s : String) : String :=
  String.ofList ('\'' :: s.toList.flatMap escape ++ ['\''])

/-! ## The scan gives its text back -/

/-- The pieces read so far, the rest and the closing quote make up the
text that was scanned. -/
theorem scan_closed {q : Char} {done ps : List Piece} {cs rest : List Char}
    (h : scan q done cs = .closed ps rest) :
    source done.reverse ++ cs = source ps ++ q :: rest := by
  fun_induction scan q done cs with
  | case1 => simp at h
  | case2 done cs =>
    simp only [Scan.closed.injEq] at h
    obtain ⟨rfl, rfl⟩ := h
    rfl
  | case3 => simp at h
  | case4 done h1 e rest' ih =>
    have := ih h
    simpa [source, Piece.source] using this
  | case5 done c cs h1 h2 ih =>
    have := ih h
    simpa [source, Piece.source] using this

/-- A literal that is never closed takes the whole text. -/
theorem scan_unclosed {q : Char} {done ps : List Piece} {cs left : List Char}
    (h : scan q done cs = .unclosed ps left) :
    source done.reverse ++ cs = source ps ++ left := by
  fun_induction scan q done cs with
  | case1 =>
    simp only [Scan.unclosed.injEq] at h
    obtain ⟨rfl, rfl⟩ := h
    rfl
  | case2 => simp at h
  | case3 =>
    simp only [Scan.unclosed.injEq] at h
    obtain ⟨rfl, rfl⟩ := h
    rfl
  | case4 done h1 e rest' ih =>
    have := ih h
    simpa [source, Piece.source] using this
  | case5 done c cs h1 h2 ih =>
    have := ih h
    simpa [source, Piece.source] using this

end Quoted

end FilterQuery
