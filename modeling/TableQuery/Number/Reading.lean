import TableQuery.Number.Rounding

/-!
Reading the written form of a number: an optional sign, then `inf`, `infinity` or `nan` in any case,
or a decimal with at least one digit and an optional exponent. Decimals are rounded once, correctly.
-/

namespace TableQuery.Number

/-- The natural number that a run of digits stands for. -/
def ofDigits (digits : List Char) : Nat :=
  digits.foldl (fun n c => 10 * n + (c.toNat - '0'.toNat)) 0

/-- The optional sign in front; true for minus. -/
def splitSign : List Char → Bool × List Char
  | '-' :: rest => (true, rest)
  | '+' :: rest => (false, rest)
  | rest => (false, rest)

/-- The value of an exponent part, zero where there is none. -/
def exponentOf? : List Char → Option Int
  | [] => some 0
  | e :: rest =>
    let (negative, digits) := splitSign rest
    if (e = 'e' ∨ e = 'E') ∧ digits ≠ [] ∧ digits.all Char.isDigit then
      some (if negative then -(ofDigits digits : Int) else ofDigits digits)
    else none

/-- The fraction digits after a point, and what follows them. -/
def splitFraction : List Char → List Char × List Char
  | '.' :: rest => rest.span Char.isDigit
  | rest => ([], rest)

/-- The number that an unsigned decimal stands for. -/
def ofDecimalText? (negative : Bool) (cs : List Char) : Option Number :=
  let (whole, rest) := cs.span Char.isDigit
  let (fraction, rest) := splitFraction rest
  let digits := whole ++ fraction
  if digits = [] then none
  else (exponentOf? rest).map fun exponent =>
    ofDecimal negative (ofDigits digits) digits.length (exponent - fraction.length)

/-- The number that a text stands for. -/
def ofText? (s : String) : Option Number :=
  let (negative, cs) := splitSign s.toList
  let word := String.ofList (cs.map Char.toLower)
  if word = "inf" ∨ word = "infinity" then some (infinity negative)
  else if word = "nan" then some (nan negative)
  else ofDecimalText? negative cs

end TableQuery.Number
