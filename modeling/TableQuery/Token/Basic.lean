import TableQuery.Value.Basic

/-!
Tokens of query text: their kinds, the reserved words, and the position each one starts at.
-/

namespace TableQuery

/-! ## Positions -/

/-- A place in a text; lines and columns count from 1 and columns count characters. -/
structure Position where
  line : Nat
  column : Nat
  deriving DecidableEq, Repr, Inhabited

namespace Position

/-- Where every text starts. -/
def start : Position := ⟨1, 1⟩

/-- The position behind a character. -/
def next (p : Position) (c : Char) : Position :=
  if c = '\n' then ⟨p.line + 1, 1⟩ else ⟨p.line, p.column + 1⟩

/-- The position behind a run of characters. -/
def after (p : Position) (cs : List Char) : Position := cs.foldl next p

def shown (p : Position) : String := toString p.line ++ ":" ++ toString p.column

end Position

/-! ## Reserved words -/

/-- The reserved words. They are recognised in lower case only. -/
inductive Keyword where
  | «is» | «select» | «distinct» | «from» | «as» | «where» | «and» | «or» | «not» | «in»
  | «null» | «true» | «false» | «between» | «like» | «ilike» | «exists» | «all» | «any»
  | «union» | «intersect» | «except» | «group» | «by» | «having» | «order» | «asc» | «desc»
  | «limit» | «offset» | «case» | «when» | «then» | «else» | «end» | «join» | «inner» | «left»
  | «right» | «full» | «outer» | «on» | «cross»
  deriving DecidableEq, Repr

namespace Keyword

/-- Every reserved word with its spelling. -/
def spellings : List (Keyword × String) :=
  [(«is», "is"), («select», "select"), («distinct», "distinct"), («from», "from"), («as», "as"),
   («where», "where"), («and», "and"), («or», "or"), («not», "not"), («in», "in"),
   («null», "null"), («true», "true"), («false», "false"), («between», "between"),
   («like», "like"), («ilike», "ilike"), («exists», "exists"), («all», "all"), («any», "any"),
   («union», "union"), («intersect», "intersect"), («except», "except"), («group», "group"),
   («by», "by"), («having», "having"), («order», "order"), («asc», "asc"), («desc», "desc"),
   («limit», "limit"), («offset», "offset"), («case», "case"), («when», "when"),
   («then», "then"), («else», "else"), («end», "end"), («join», "join"), («inner», "inner"),
   («left», "left"), («right», "right"), («full», "full"), («outer», "outer"), («on», "on"),
   («cross», "cross")]

/-- The reserved word a text spells. -/
def ofWord? (word : String) : Option Keyword :=
  (spellings.find? (·.2 == word)).map (·.1)

/-- How a reserved word is spelled. -/
def word (k : Keyword) : String :=
  ((spellings.find? (·.1 == k)).map (·.2)).getD ""

end Keyword

/-! ## Tokens -/

/-- What a token is, its text aside. -/
inductive TokenKind where
  | keyword (k : Keyword)
  | number
  | string
  | identifier
  | equal
  | notEqual
  | less
  | greater
  | lessEqual
  | greaterEqual
  | plus
  | minus
  | star
  | slash
  | percent
  | semicolon
  | comma
  | dot
  | leftParen
  | rightParen
  | leftBracket
  | rightBracket
  | comment
  | endOfText
  deriving DecidableEq, Repr

/-- One unit of query text. -/
structure Token where
  kind : TokenKind
  /-- The text the token was scanned from, empty at the end. -/
  lexeme : String
  /-- The value of a literal, the text of a comment. -/
  literal : Option Value
  pos : Position
  deriving DecidableEq, Repr

namespace Token

def isEnd (t : Token) : Bool := t.kind == .endOfText

/-- The token as messages name it. -/
def shown (t : Token) : String :=
  if t.isEnd then "end of input at " ++ t.pos.shown
  else "'" ++ t.lexeme ++ "' at " ++ t.pos.shown

end Token

end TableQuery
