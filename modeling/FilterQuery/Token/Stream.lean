/-
FilterQuery.Token.Stream — a place in a sequence of tokens.

The stream is the list of tokens still ahead, with the position that
stands for the end of the text. Looking ahead changes nothing; `advance`
moves past one token.
-/
import FilterQuery.Token.Basic

namespace FilterQuery

/-- Tokens still to be read, and the position of the end of the text. -/
structure TokenStream where
  rest : List Token
  stop : Position
deriving Repr

namespace TokenStream

/-- The current token. -/
def peek? (s : TokenStream) : Option Token := s.rest.head?

/-- The token `n` places after the current one. -/
def peekNth? (s : TokenStream) (n : Nat) : Option Token := s.rest[n]?

/-- The current token, if there is one, and the stream behind it. -/
def advance (s : TokenStream) : Option Token × TokenStream :=
  (s.peek?, { s with rest := s.rest.tail })

/-- Whether the current token is of the given kind, values put aside. -/
def check (s : TokenStream) (kind : Token.Kind) : Bool :=
  match s.peek? with
  | some t => t.kind.sameShape kind
  | none => false

/-- Whether all tokens have been read. -/
def isAtEnd (s : TokenStream) : Bool := s.rest.isEmpty

/-- The position of the current token, or of the end of the text. -/
def position (s : TokenStream) : Position :=
  match s.peek? with
  | some t => t.position
  | none => s.stop

end TokenStream

end FilterQuery
