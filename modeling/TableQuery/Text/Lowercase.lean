import TableQuery.Text.Basic
import TableQuery.Text.CaseTable

/-!
Lower-casing of whole texts. Nearly every character is mapped by itself; the dotted capital I
becomes two characters, and a capital sigma is written in its final form where it ends a word.
-/

namespace TableQuery.Text

/-! ## Single characters -/

def CaseRun.contains (run : CaseRun) (n : Nat) : Bool :=
  run.first ≤ n && n ≤ run.last && (n - run.first) % run.step == 0

/-- The lower-case form of a character, itself where it has none. -/
def lowerChar (c : Char) : List Char :=
  if c.toNat < 0x80 then [c.toLower]
  else if c = '\u0130' then ['i', '\u0307']
  else match lowercaseRuns.find? (·.contains c.toNat) with
    | some run => [Char.ofNat (c.toNat + run.shift).toNat]
    | none => [c]

/-! ## Sigma at the end of a word -/

/-- The first character that is not case-ignorable is cased. -/
def meetsCased (cs : List Char) : Bool :=
  match cs.dropWhile (inRanges caseIgnorableRanges) with
  | [] => false
  | c :: _ => inRanges casedRanges c

/-- A sigma between these characters ends a word: letters come before it and none after. The
characters before are given from the sigma outwards. -/
def endsWord (before after : List Char) : Bool := meetsCased before && !meetsCased after

/-! ## Texts -/

/-- Lower-cases a text whose preceding characters, last one first, are `before`. -/
def lowerAfter (before : List Char) : List Char → List Char
  | [] => []
  | c :: rest =>
    let lower := if c = 'Σ' then [if endsWord before rest then 'ς' else 'σ'] else lowerChar c
    lower ++ lowerAfter (c :: before) rest

def lowercase (s : String) : String := String.ofList (lowerAfter [] s.toList)

end TableQuery.Text
