import TableQuery.Number.Shortest

/-!
The written forms of numbers: the shortest digits that read back, laid out by one of two sets of
rules. The plain form never has an exponent and serves messages, row displays and text grids; the
document form marks whole numbers with `.0` and writes very large and very small ones with an
exponent.
-/

namespace TableQuery.Number

/-- Rules for laying out digits. -/
structure Layout where
  /-- Which of two equally near digit strings is written. -/
  tie : Tie
  /-- Places of the point, counted from before the first digit, that are written without an
  exponent: above the first bound and up to the second. Without bounds there never is one. -/
  positional : Option (Int × Int)
  /-- Whole numbers written without an exponent end in `.0`. -/
  marksWhole : Bool

namespace Layout

/-- Always positional, whole numbers bare, ties upwards. -/
def plain : Layout := ⟨.upward, none, false⟩

/-- Positional from `0.00001` up to sixteen whole digits, whole numbers marked, ties to even. -/
def document : Layout := ⟨.toEven, some (-5, 16), true⟩

def zeros (n : Nat) : List Char := List.replicate n '0'

/-- The digits with the point after the first `point` of them, zeros filling the gap. -/
def positionalText (layout : Layout) (digits : List Char) (point : Int) : List Char :=
  if point ≤ 0 then '0' :: '.' :: (zeros (-point).toNat ++ digits)
  else if digits.length ≤ point then
    digits ++ zeros (point.toNat - digits.length) ++ if layout.marksWhole then ['.', '0'] else []
  else digits.take point.toNat ++ '.' :: digits.drop point.toNat

/-- One digit before the point and the power of ten that restores the value, always with a sign. -/
def exponentText (digits : List Char) (point : Int) : List Char :=
  let fraction := match digits.drop 1 with
    | [] => []
    | rest => '.' :: rest
  let power := point - 1
  let sign := if power < 0 then '-' else '+'
  digits.take 1 ++ fraction ++ 'e' :: sign :: Nat.toDigits 10 power.natAbs

def isPositional (layout : Layout) (point : Int) : Bool :=
  match layout.positional with
  | none => true
  | some (least, greatest) => least < point && point ≤ greatest

/-- The written form of a nonnegative decimal. -/
def decimalText (layout : Layout) (d : Decimal) : List Char :=
  let digits := Nat.toDigits 10 d.digits
  let point := d.exponent + digits.length
  if layout.isPositional point then layout.positionalText digits point
  else exponentText digits point

/-- The written form of a finite number; both zeros keep their sign. -/
def finiteText (layout : Layout) (x : Number) : String :=
  let decimal := if x.isZero then ⟨0, 0⟩ else x.shortest layout.tie
  String.ofList ((if x.isNegative then ['-'] else []) ++ layout.decimalText decimal)

end Layout

/-- The plain form. A NaN shows no sign. -/
def text (x : Number) : String :=
  if x.isNaN then "NaN"
  else if x.isInfinite then (if x.isNegative then "-inf" else "inf")
  else Layout.plain.finiteText x

end TableQuery.Number
