/-!
Blanks and quotes, as the scanner and the shell see them. Blanks are the characters with the Unicode
property White_Space; the zero-width space and the byte order mark do not have it. A quote inside a
quoted text is written twice, so a quote that stands alone closes the text.
-/

namespace TableQuery.Text

/-! ## Blanks -/

/-- First and last code points of the ranges with the property White_Space. -/
def blankRanges : List (Nat × Nat) :=
  [(0x9, 0xD), (0x20, 0x20), (0x85, 0x85), (0xA0, 0xA0), (0x1680, 0x1680), (0x2000, 0x200A),
   (0x2028, 0x2029), (0x202F, 0x202F), (0x205F, 0x205F), (0x3000, 0x3000)]

/-- The code point lies in one of the ranges. -/
def inRanges (ranges : List (Nat × Nat)) (c : Char) : Bool :=
  ranges.any fun range => range.1 ≤ c.toNat && c.toNat ≤ range.2

def isBlank (c : Char) : Bool := inRanges blankRanges c

/-- The text without the blanks at both ends. -/
def trim (cs : List Char) : List Char :=
  ((cs.dropWhile isBlank).reverse.dropWhile isBlank).reverse

theorem isBlank_newline : isBlank '\n' = true := by decide

theorem isBlank_of_isWhitespace {c : Char} (h : c.isWhitespace = true) : isBlank c = true := by
  simp only [Char.isWhitespace, Bool.or_eq_true, decide_eq_true_eq] at h
  rcases h with ((h | h) | h) | h <;> subst h <;> decide

/-! ## Quoted one-line texts -/

namespace Quoted

/-- The quote character. -/
def quote : Char := '\x27'

/-- The text with every quote doubled. -/
def doubled : List Char → List Char
  | [] => []
  | c :: rest => if c = quote then quote :: quote :: doubled rest else c :: doubled rest

/-- The text in quotes. -/
def encode (text : List Char) : List Char := quote :: (doubled text ++ [quote])

/-- The text up to the closing quote, and how many characters it takes with that quote. There is
none where the line or the input ends first. -/
def close? : List Char → Option (List Char × Nat)
  | [] => none
  | '\n' :: _ => none
  | '\x27' :: '\x27' :: rest =>
    (close? rest).map fun (text, size) => (quote :: text, size + 2)
  | '\x27' :: _ => some ([], 1)
  | c :: rest => (close? rest).map fun (text, size) => (c :: text, size + 1)

end Quoted

end TableQuery.Text
