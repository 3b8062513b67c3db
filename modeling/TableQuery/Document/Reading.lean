import TableQuery.Document.Basic
import TableQuery.Document.Numeral

/-!
Reading JSON text, strictly: no comments, no commas too many, no control characters in strings,
every surrogate in a pair, nothing behind the document. Arrays and objects can be nested 127 deep.

Every rule returns what it leaves unread, with a proof that this is shorter than what it was given.
-/

namespace TableQuery.Document

/-- A value read from text, with fewer than `n` characters left. -/
structure Read (α : Type) (n : Nat) where
  value : α
  rest : List Char
  shorter : rest.length < n

theorem length_lt_succ (cs : List Char) : cs.length < cs.length + 1 := Nat.lt_succ_self _

theorem length_tail_lt_succ (cs : List Char) : cs.tail.length < cs.length + 1 := by
  rw [List.length_tail]
  omega

theorem length_tail_lt (c : Char) (rest : List Char) : rest.length < (c :: rest).length :=
  Nat.lt_succ_self _

/-! ## Blanks and fixed words -/

def isBlank (c : Char) : Bool := c == ' ' || c == '\t' || c == '\n' || c == '\r'

/-- Skips blanks. -/
def skipBlanks (cs : List Char) : Read Unit (cs.length + 1) :=
  ⟨(), cs.dropWhile isBlank, by have := (List.dropWhile_sublist isBlank (l := cs)).length_le; omega⟩

/-- Reads the first character behind blanks. -/
def readVisible (cs : List Char) : Option (Read Char cs.length) :=
  match skipBlanks cs with
  | ⟨_, [], _⟩ => none
  | ⟨_, c :: rest, h⟩ => some ⟨c, rest, Nat.lt_of_succ_lt_succ h⟩

/-- Reads a given character behind blanks. -/
def readMark (mark : Char) (cs : List Char) : Option (Read Unit cs.length) := do
  let ⟨c, rest, h⟩ ← readVisible cs
  if c = mark then some ⟨(), rest, h⟩ else none

/-- Reads the characters of a word. -/
def readWord (word : List Char) (cs : List Char) : Option (Read Unit (cs.length + 1)) :=
  match word, cs with
  | [], cs => some ⟨(), cs, by omega⟩
  | _ :: _, [] => none
  | w :: word, c :: cs =>
    if c = w then (readWord word cs).map fun ⟨_, rest, h⟩ =>
      ⟨(), rest, by simp only [List.length_cons]; omega⟩
    else none

/-! ## Strings -/

/-- The value of a hexadecimal digit. -/
def hexDigit? (c : Char) : Option Nat :=
  if c.isDigit then some (c.toNat - '0'.toNat)
  else if 'a' ≤ c ∧ c ≤ 'f' then some (c.toNat - 'a'.toNat + 10)
  else if 'A' ≤ c ∧ c ≤ 'F' then some (c.toNat - 'A'.toNat + 10)
  else none

/-- Reads the code unit that four hexadecimal digits stand for. -/
def readCodeUnit (cs : List Char) : Option (Read Nat cs.length) :=
  match cs with
  | a :: b :: c :: d :: rest => do
    let a ← hexDigit? a
    let b ← hexDigit? b
    let c ← hexDigit? c
    let d ← hexDigit? d
    some ⟨((a * 16 + b) * 16 + c) * 16 + d, rest, by simp only [List.length_cons]; omega⟩
  | _ => none

def isHighSurrogate (n : Nat) : Bool := 0xD800 ≤ n && n < 0xDC00

def isLowSurrogate (n : Nat) : Bool := 0xDC00 ≤ n && n < 0xE000

/-- The character that a letter behind a backslash stands for. -/
def escaped? : Char → Option Char
  | '"' => some '"'
  | '\\' => some '\\'
  | '/' => some '/'
  | 'b' => some '\x08'
  | 'f' => some '\x0c'
  | 'n' => some '\n'
  | 'r' => some '\r'
  | 't' => some '\t'
  | _ => none

/-- Reads the second half of a surrogate pair, given its first, with backslash and letter. -/
def readLowSurrogate (high : Nat) (cs : List Char) : Option (Read Char cs.length) :=
  match cs with
  | '\\' :: 'u' :: rest => do
    let ⟨low, left, _⟩ ← readCodeUnit rest
    if isLowSurrogate low then
      let code := 0x10000 + (high - 0xD800) * 0x400 + (low - 0xDC00)
      some ⟨Char.ofNat code, left, by simp only [List.length_cons]; omega⟩
    else none
  | _ => none

/-- Reads a character behind a backslash. -/
def readEscaped (cs : List Char) : Option (Read Char cs.length) :=
  match cs with
  | [] => none
  | 'u' :: rest => do
    let ⟨unit, left, _⟩ ← readCodeUnit rest
    if isHighSurrogate unit then
      let ⟨c, left, _⟩ ← readLowSurrogate unit left
      some ⟨c, left, by simp only [List.length_cons]; omega⟩
    else if isLowSurrogate unit then none
    else some ⟨Char.ofNat unit, left, by simp only [List.length_cons]; omega⟩
  | letter :: rest => (escaped? letter).map fun c => ⟨c, rest, length_tail_lt letter rest⟩

/-- Reads up to the closing quote. -/
def readString (cs : List Char) : Option (Read (List Char) cs.length) :=
  match cs with
  | [] => none
  | '"' :: rest => some ⟨[], rest, length_tail_lt '"' rest⟩
  | '\\' :: rest => do
    let ⟨c, left, _⟩ ← readEscaped rest
    let ⟨chars, left, _⟩ ← readString left
    some ⟨c :: chars, left, by simp only [List.length_cons]; omega⟩
  | c :: rest =>
    if c.toNat < 0x20 then none
    else do
      let ⟨chars, left, _⟩ ← readString rest
      some ⟨c :: chars, left, by simp only [List.length_cons]; omega⟩
termination_by cs.length
decreasing_by all_goals (simp only [List.length_cons]; omega)

/-! ## Numerals -/

/-- Reads any number of digits. -/
def readDigits (cs : List Char) : Read (List Char) (cs.length + 1) :=
  ⟨cs.takeWhile Char.isDigit, cs.dropWhile Char.isDigit, by
    have := (List.dropWhile_sublist Char.isDigit (l := cs)).length_le; omega⟩

theorem length_dropWhile_lt {p : Char → Bool} {cs : List Char} (h : cs.takeWhile p ≠ []) :
    (cs.dropWhile p).length < cs.length := by
  have whole := congrArg List.length (List.takeWhile_append_dropWhile (p := p) (l := cs))
  have := List.length_pos_iff.mpr h
  rw [List.length_append] at whole
  omega

/-- Reads the digits before the point: a zero alone, or digits that do not begin with one. -/
def readWhole (cs : List Char) : Option (Read (List Char) cs.length) :=
  if h : cs.takeWhile Char.isDigit = [] then none
  else
    match cs.takeWhile Char.isDigit with
    | '0' :: _ :: _ => none
    | digits => some ⟨digits, cs.dropWhile Char.isDigit, length_dropWhile_lt h⟩

/-- Reads the point and the digits behind it, if there is a point. -/
def readFraction (cs : List Char) : Option (Read (List Char) (cs.length + 1)) :=
  match cs with
  | '.' :: rest =>
    match readDigits rest with
    | ⟨[], _, _⟩ => none
    | ⟨digits, left, _⟩ => some ⟨digits, left, by simp only [List.length_cons]; omega⟩
  | cs => some ⟨[], cs, length_lt_succ cs⟩

/-- Reads the mark if it comes next, and says whether it did. -/
def readOptional (mark : Char) (cs : List Char) : Read Bool (cs.length + 1) :=
  if cs.head? = some mark then ⟨true, cs.tail, length_tail_lt_succ cs⟩
  else ⟨false, cs, length_lt_succ cs⟩

/-- Reads an exponent's sign, if there is one; true for minus. -/
def readSign (cs : List Char) : Read Bool (cs.length + 1) :=
  match readOptional '-' cs with
  | ⟨true, rest, h⟩ => ⟨true, rest, h⟩
  | ⟨false, _, _⟩ =>
    let ⟨_, rest, h⟩ := readOptional '+' cs
    ⟨false, rest, h⟩

/-- Reads an exponent with its sign, if there is one; true for minus. -/
def readExponent (cs : List Char) : Option (Read (Bool × List Char) (cs.length + 1)) :=
  if cs.head? = some 'e' ∨ cs.head? = some 'E' then
    let ⟨down, c₁, _⟩ := readSign cs.tail
    match readDigits c₁ with
    | ⟨[], _, _⟩ => none
    | ⟨digits, c₂, _⟩ => some ⟨(down, digits), c₂, by have := length_tail_lt_succ cs; omega⟩
  else some ⟨(false, []), cs, length_lt_succ cs⟩

/-- Reads a numeral. -/
def readNumeral (cs : List Char) : Option (Read Numeral cs.length) := do
  let ⟨negative, c₁, _⟩ := readOptional '-' cs
  let ⟨whole, c₂, _⟩ ← readWhole c₁
  let ⟨fraction, c₃, _⟩ ← readFraction c₂
  let ⟨(down, exponent), c₄, _⟩ ← readExponent c₃
  some ⟨⟨negative, whole, fraction, down, exponent⟩, c₄, by omega⟩

/-! ## Documents -/

/-- How deep arrays and objects can be nested. -/
def mostDepth : Nat := 127

mutual

/-- Reads a document with up to `depth` levels of nesting, behind blanks. -/
def readDocument (depth : Nat) (cs : List Char) : Option (Read Document cs.length) :=
  match readVisible cs with
  | none => none
  | some ⟨c, rest, _⟩ =>
    match c, depth with
    | 'n', _ => (readWord ['u', 'l', 'l'] rest).map fun ⟨_, left, _⟩ => ⟨null, left, by omega⟩
    | 't', _ =>
      (readWord ['r', 'u', 'e'] rest).map fun ⟨_, left, _⟩ => ⟨boolean true, left, by omega⟩
    | 'f', _ =>
      (readWord ['a', 'l', 's', 'e'] rest).map fun ⟨_, left, _⟩ =>
        ⟨boolean false, left, by omega⟩
    | '"', _ =>
      (readString rest).map fun ⟨chars, left, _⟩ =>
        ⟨text (String.ofList chars), left, by omega⟩
    | '[', depth + 1 =>
      match readMark ']' rest with
      | some ⟨_, left, _⟩ => some ⟨array [], left, by omega⟩
      | none =>
        (readItems depth rest).map fun ⟨items, left, _⟩ => ⟨array items, left, by omega⟩
    | '\x7b', depth + 1 =>
      match readMark '\x7d' rest with
      | some ⟨_, left, _⟩ => some ⟨object [], left, by omega⟩
      | none =>
        (readMembers depth rest).map fun ⟨members, left, _⟩ =>
          ⟨ofMembers members, left, by omega⟩
    | c, _ => do
      let ⟨numeral, left, h⟩ ← readNumeral (c :: rest)
      let n ← numeral.number?
      some ⟨number n, left, by rw [List.length_cons] at h; omega⟩
termination_by 2 * cs.length

/-- Reads the items of an array up to its closing bracket, at least one. -/
def readItems (depth : Nat) (cs : List Char) : Option (Read (List Document) cs.length) := do
  let ⟨item, c₁, _⟩ ← readDocument depth cs
  match readMark ',' c₁ with
  | some ⟨_, c₂, _⟩ =>
    let ⟨items, c₃, _⟩ ← readItems depth c₂
    some ⟨item :: items, c₃, by omega⟩
  | none =>
    let ⟨_, c₂, _⟩ ← readMark ']' c₁
    some ⟨[item], c₂, by omega⟩
termination_by 2 * cs.length + 1

/-- Reads the members of an object up to its closing brace, at least one. -/
def readMembers (depth : Nat) (cs : List Char) :
    Option (Read (List (String × Document)) cs.length) := do
  let ⟨_, c₁, _⟩ ← readMark '"' cs
  let ⟨name, c₂, _⟩ ← readString c₁
  let ⟨_, c₃, _⟩ ← readMark ':' c₂
  let ⟨content, c₄, _⟩ ← readDocument depth c₃
  match readMark ',' c₄ with
  | some ⟨_, c₅, _⟩ =>
    let ⟨members, c₆, _⟩ ← readMembers depth c₅
    some ⟨(String.ofList name, content) :: members, c₆, by omega⟩
  | none =>
    let ⟨_, c₅, _⟩ ← readMark '\x7d' c₄
    some ⟨[(String.ofList name, content)], c₅, by omega⟩
termination_by 2 * cs.length

end

/-- The document that a text is. -/
def ofText? (s : String) : Option Document := do
  let ⟨document, rest, _⟩ ← readDocument mostDepth s.toList
  if rest.all isBlank then some document else none

end TableQuery.Document
