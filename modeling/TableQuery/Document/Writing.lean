import TableQuery.Document.Basic
import TableQuery.Number.Layout

/-!
Writing documents as JSON text over several lines, each item and member on its own line and two
spaces deeper than what holds it. Empty arrays and objects take no line of their own.
-/

namespace TableQuery.Document

/-- A hexadecimal digit. -/
def hexDigit (n : Nat) : Char := (Nat.digitChar (n % 16))

/-- How a character stands in a string. Only what has to be escaped is. -/
def escaped (c : Char) : List Char :=
  match c with
  | '"' => ['\\', '"']
  | '\\' => ['\\', '\\']
  | '\x08' => ['\\', 'b']
  | '\x0c' => ['\\', 'f']
  | '\n' => ['\\', 'n']
  | '\r' => ['\\', 'r']
  | '\t' => ['\\', 't']
  | c =>
    if c.toNat < 0x20 then ['\\', 'u', '0', '0', hexDigit (c.toNat / 16), hexDigit c.toNat]
    else [c]

def quoted (s : String) : String := "\"" ++ String.ofList (s.toList.flatMap escaped) ++ "\""

/-- The start of a line at some depth. -/
def newline (depth : Nat) : String := "\n" ++ String.ofList (List.replicate (2 * depth) ' ')

/-- Parts between brackets, each on a line of its own. -/
def bracketed (opening closing : String) (depth : Nat) (parts : List String) : String :=
  if parts.isEmpty then opening ++ closing
  else
    let lines := parts.map fun part => newline (depth + 1) ++ part
    opening ++ ",".intercalate lines ++ newline depth ++ closing

mutual

/-- The text of a document whose first line stands at some depth. -/
def write (depth : Nat) : Document → String
  | null => "null"
  | boolean true => "true"
  | boolean false => "false"
  | number n => if n.isFinite then Number.Layout.document.finiteText n else "null"
  | text s => quoted s
  | array items => bracketed "[" "]" depth (writeItems (depth + 1) items)
  | object members => bracketed "\x7b" "\x7d" depth (writeMembers (depth + 1) members)

/-- The texts of items. -/
def writeItems (depth : Nat) : List Document → List String
  | [] => []
  | item :: rest => write depth item :: writeItems depth rest

/-- The texts of members. -/
def writeMembers (depth : Nat) : List (String × Document) → List String
  | [] => []
  | member :: rest => writeMember depth member :: writeMembers depth rest

/-- The text of a member. -/
def writeMember (depth : Nat) : String × Document → String
  | (name, content) => quoted name ++ ": " ++ write depth content

end

/-- The document as text. -/
def shown (document : Document) : String := document.write 0

end TableQuery.Document
