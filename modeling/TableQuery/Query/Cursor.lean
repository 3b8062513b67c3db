import TableQuery.Token.Scan

/-!
Reading tokens one by one. A cursor is the list of tokens not yet read, the current one first; it
stays at the token that marks the end, whatever is asked of it. A failed rule reports the cursor it
stopped at, whose current token is the one to blame.
-/

namespace TableQuery

/-- Why tokens do not form a query. -/
inductive ParseError where
  | scan (error : ScanError)
  /-- The grammar asks for another token. -/
  | unexpectedToken (token : Token) (expectation : String)
  /-- The tokens fit the grammar but the construct is not allowed. -/
  | invalidSyntax (token : Token) (reason : String)
  /-- A reserved word for something that queries cannot do. -/
  | unsupported (token : Token) (feature : String)
  /-- There is no token at all. -/
  | endOfInput
  deriving DecidableEq, Repr

namespace ParseError

/-- The token to blame. -/
def token? : ParseError → Option Token
  | unexpectedToken token _ | invalidSyntax token _ | unsupported token _ => some token
  | scan _ | endOfInput => none

def message : ParseError → String
  | scan error => "Scan error: " ++ error.message
  | unexpectedToken token expectation => expectation ++ ", found " ++ token.shown
  | invalidSyntax token reason => "Invalid syntax at " ++ token.pos.shown ++ ": " ++ reason
  | unsupported token feature =>
    "'" ++ feature ++ "' is not supported (at " ++ token.pos.shown ++ ")"
  | endOfInput => "Unexpected end of input"

end ParseError

/-- The tokens not yet read. -/
abbrev Cursor := List Token

/-- A fault and the cursor it was found at. -/
structure ParseFailure where
  error : ParseError
  rest : Cursor

/-- A value read from tokens, with fewer than `n` of them left. -/
structure Step (α : Type) (n : Nat) where
  value : α
  rest : Cursor
  shorter : rest.length < n

/-- The outcome of a rule. With the number of unread tokens for `n`, the rule reads at least one
token when it succeeds; with one more, it may read none. -/
abbrev Parsed (α : Type) (n : Nat) := Except ParseFailure (Step α n)

namespace Cursor

/-! ## Length -/

theorem length_lt_succ (c : Cursor) : c.length < c.length + 1 := Nat.lt_succ_self _

theorem length_tail_lt (t : Token) (rest : Cursor) : rest.length < List.length (t :: rest) :=
  Nat.lt_succ_self _

/-- What follows a rule that follows another one is shorter than what both began with. -/
theorem length_lt_trans {a b c : Cursor} (h : a.length < b.length) (h' : b.length < c.length) :
    a.length < c.length :=
  Nat.lt_trans h h'

/-- The same where the second rule may read nothing. -/
theorem length_lt_succ_trans {a b c : Cursor} (h : a.length < b.length + 1)
    (h' : b.length < c.length) : a.length < c.length + 1 :=
  Nat.lt_succ_of_lt (Nat.lt_of_lt_of_le h h')

/-! ## Starting -/

/-- The tokens without comments, closed by an end token where they have none. -/
def ofTokens (tokens : List Token) : Cursor :=
  let tokens := tokens.filter (·.kind != .comment)
  match tokens.getLast? with
  | none => [⟨.endOfText, "", none, .start⟩]
  | some last =>
    if last.isEnd then tokens
    else
      let pos := ⟨last.pos.line, last.pos.column + last.lexeme.length⟩
      tokens ++ [⟨.endOfText, "", none, pos⟩]

/-- The tokens of a text. -/
def ofText? (text : String) : Except ParseError Cursor :=
  match Token.scan? text with
  | .ok tokens => .ok (ofTokens tokens)
  | .error e => .error (.scan e)

/-! ## Looking -/

/-- The token at hand. -/
def current? (c : Cursor) : Option Token := c.head?

/-- The token behind the current one, even behind an end token. -/
def peek? (c : Cursor) : Option Token := c.tail.head?

/-- The current token has this kind. -/
def at? (c : Cursor) (kind : TokenKind) : Bool := c.current?.any (·.kind == kind)

def peeks (c : Cursor) (kind : TokenKind) : Bool := c.peek?.any (·.kind == kind)

def isAtEnd (c : Cursor) : Bool := c.current?.all (·.isEnd)

/-! ## Failing -/

/-- The failure that blames the current token. -/
def blame (c : Cursor) (error : Token → ParseError) : ParseFailure :=
  ⟨(c.current?.map error).getD .endOfInput, c⟩

def unexpected (c : Cursor) (expectation : String) : ParseFailure :=
  c.blame (.unexpectedToken · expectation)

def invalid (c : Cursor) (reason : String) : ParseFailure := c.blame (.invalidSyntax · reason)

def unsupported (c : Cursor) (feature : String) : ParseFailure := c.blame (.unsupported · feature)

/-! ## Moving -/

/-- The cursor behind the current token; it never moves past an end token. -/
def next : Cursor → Cursor
  | [] => []
  | t :: rest => if t.isEnd then t :: rest else rest

/-- The current token and the cursor behind it. -/
def advance (c : Cursor) : Except ParseFailure (Token × Cursor) :=
  match c.current? with
  | some t => .ok (t, c.next)
  | none => .error ⟨.endOfInput, c⟩

/-- The current token, where it has this kind, and the cursor behind it. -/
def expect (c : Cursor) (kind : TokenKind) (expectation : String) :
    Except ParseFailure (Token × Cursor) :=
  if c.at? kind then c.advance else .error (c.unexpected expectation)

/-- Reads the current token where it has this kind. -/
def accept? (c : Cursor) (kind : TokenKind) : Option (Step Token c.length) :=
  match c with
  | [] => none
  | t :: rest => if t.kind = kind then some ⟨t, rest, length_tail_lt t rest⟩ else none

/-- Reads a token that the grammar asks for. -/
def take (c : Cursor) (kind : TokenKind) (expectation : String) : Parsed Token c.length :=
  match c.accept? kind with
  | some step => .ok step
  | none => .error (c.unexpected expectation)

/-- Reads an identifier. -/
def identifier (c : Cursor) : Parsed Token c.length := c.take .identifier "Expected identifier"

end Cursor

end TableQuery
