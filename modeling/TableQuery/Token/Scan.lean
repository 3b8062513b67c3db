import TableQuery.Number.Reading
import TableQuery.Text.Basic
import TableQuery.Token.Basic

/-!
Cutting query text into tokens. Blanks separate tokens and are skipped; each token takes as many
characters as it can; the last token marks the end of the text. Letters and digits are ASCII.

Scanning stops at the first fault and keeps the tokens before it.
-/

namespace TableQuery

/-- Why a text cannot be cut into tokens. -/
inductive ScanError where
  | unterminatedString (pos : Position)
  | unexpectedCharacter (c : Char) (pos : Position)
  | invalidNumber (lexeme : String) (pos : Position)
  deriving DecidableEq, Repr

def ScanError.message : ScanError → String
  | unterminatedString pos => "Unterminated string literal starting at " ++ pos.shown
  | unexpectedCharacter c pos => "Unexpected character '" ++ c.toString ++ "' at " ++ pos.shown
  | invalidNumber lexeme pos => "Invalid number literal '" ++ lexeme ++ "' at " ++ pos.shown

namespace Token
open Text

/-! ## One token -/

/-- What the token at hand is, and how many characters it takes beyond its first. -/
structure Extent where
  kind : TokenKind
  literal : Option Value
  more : Nat

def isWordStart (c : Char) : Bool := c == '_' || c.isAlpha

def isWordPart (c : Char) : Bool := c == '_' || c.isAlphanum

/-- Operators and punctuation, the longer of two that begin alike first. -/
def symbolExtent? (c : Char) (rest : List Char) : Option Extent :=
  let one (kind : TokenKind) : Option Extent := some ⟨kind, none, 0⟩
  let two (kind : TokenKind) : Option Extent := some ⟨kind, none, 1⟩
  match c, rest with
  | '+', _ => one .plus
  | '-', _ => one .minus
  | '*', _ => one .star
  | '/', _ => one .slash
  | '%', _ => one .percent
  | '=', _ => one .equal
  | '.', _ => one .dot
  | ',', _ => one .comma
  | ';', _ => one .semicolon
  | '(', _ => one .leftParen
  | ')', _ => one .rightParen
  | '[', _ => one .leftBracket
  | ']', _ => one .rightBracket
  | '<', '=' :: _ => two .lessEqual
  | '<', '>' :: _ => two .notEqual
  | '<', _ => one .less
  | '>', '=' :: _ => two .greaterEqual
  | '>', _ => one .greater
  | _, _ => none

/-- A comment ends before the end of its line. Its literal is what follows the two dashes. -/
def commentExtent (rest : List Char) : Extent :=
  let text := (rest.drop 1).takeWhile (· != '\n')
  ⟨.comment, some (.text (String.ofList text)), text.length + 1⟩

/-- How many characters of a number follow its first digit. A point belongs to it only before a
digit. -/
def numberSize (rest : List Char) : Nat :=
  let whole := rest.takeWhile Char.isDigit
  match rest.dropWhile Char.isDigit with
  | '.' :: d :: more =>
    if d.isDigit then whole.length + 1 + ((d :: more).takeWhile Char.isDigit).length
    else whole.length
  | _ => whole.length

/-- The kind of a word and the literal of the words that are one. -/
def wordKind (word : String) : TokenKind × Option Value :=
  match Keyword.ofWord? word with
  | none => (.identifier, none)
  | some k =>
    let literal : Option Value := match k with
      | .true => some (.boolean true)
      | .false => some (.boolean false)
      | .null => some .null
      | _ => none
    (.keyword k, literal)

/-- The extent of the token that begins with `c`, at `pos` and before `rest`. -/
def extent (pos : Position) (c : Char) (rest : List Char) : Except ScanError Extent :=
  if c = '-' ∧ rest.head? = some '-' then .ok (commentExtent rest)
  else if c = Quoted.quote then
    match Quoted.close? rest with
    | some (text, size) => .ok ⟨.string, some (.text (String.ofList text)), size⟩
    | none => .error (.unterminatedString pos)
  else if c.isDigit then
    let size := numberSize rest
    let lexeme := String.ofList (c :: rest.take size)
    match Number.ofText? lexeme with
    | some n => .ok ⟨.number, some (.number n), size⟩
    | none => .error (.invalidNumber lexeme pos)
  else if isWordStart c then
    let tail := rest.takeWhile isWordPart
    let (kind, literal) := wordKind (String.ofList (c :: tail))
    .ok ⟨kind, literal, tail.length⟩
  else match symbolExtent? c rest with
    | some extent => .ok extent
    | none => .error (.unexpectedCharacter c pos)

/-! ## All tokens -/

/-- The tokens of a text that starts at `pos`, up to its end or to the first fault. -/
def scanFrom (pos : Position) (cs : List Char) : List Token × Option ScanError :=
  let pos := pos.after (cs.takeWhile isBlank)
  match _found : cs.dropWhile isBlank with
  | [] => ([⟨.endOfText, "", none, pos⟩], none)
  | c :: rest =>
    match extent pos c rest with
    | .error e => ([], some e)
    | .ok e =>
      let lexeme := c :: rest.take e.more
      let (tokens, fault) := scanFrom (pos.after lexeme) (rest.drop e.more)
      (⟨e.kind, String.ofList lexeme, e.literal, pos⟩ :: tokens, fault)
termination_by cs.length
decreasing_by
  have shorter := (List.dropWhile_sublist (p := isBlank) (l := cs)).length_le
  simp only [_found, List.length_cons, List.length_drop] at shorter ⊢
  omega

/-- The tokens of a text and the fault that ended the scan, if there was one. -/
def scan (text : String) : List Token × Option ScanError := scanFrom .start text.toList

/-- The tokens of a text without fault. -/
def scan? (text : String) : Except ScanError (List Token) :=
  match scan text with
  | (tokens, none) => .ok tokens
  | (_, some e) => .error e

end Token

end TableQuery
