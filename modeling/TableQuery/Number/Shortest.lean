import TableQuery.Number.Rounding

/-!
The shortest decimal that reads back as a given number. The decimals that read back are those
between the midpoints to the two neighbouring numbers, midpoints included where the significand is
even. The search goes through the decimal grids from coarse to fine and stops at the first one with
a point in that interval; if the two points around the value both lie in it, the nearer one is
taken.

All comparisons are between naturals over one common denominator.
-/

namespace TableQuery.Number

/-- The positive value `digits * 10 ^ exponent`. -/
structure Decimal where
  digits : Nat
  exponent : Int
  deriving DecidableEq, Repr

/-- Which of two equally near decimals is taken. -/
inductive Tie where
  | upward
  | toEven
  deriving DecidableEq, Repr

/-- A value and the ends of the interval that reads back as it, over one denominator. -/
structure Neighbourhood where
  low : Nat
  value : Nat
  high : Nat
  denominator : Nat
  endsIncluded : Bool

/-- The interval of a finite number other than zero. The gap below a power of two is half the one
above it, except where the exponent can go no lower. -/
def neighbourhood (x : Number) : Neighbourhood :=
  let narrow := x.significand = hiddenBit ∧ leastExponent < x.exponent
  -- quarters of the last place make the midpoints whole
  let (unit, denominator) := scaleByTwo 1 4 x.exponent
  { low := (4 * x.significand - if narrow then 1 else 2) * unit
    value := 4 * x.significand * unit
    high := (4 * x.significand + 2) * unit
    denominator
    endsIncluded := x.significand % 2 = 0 }

namespace Neighbourhood

/-- The same interval measured in units of `10 ^ grid`. -/
def onGrid (i : Neighbourhood) (grid : Int) : Neighbourhood :=
  let fine := tenTo (-grid).toNat
  { i with
    low := i.low * fine
    value := i.value * fine
    high := i.high * fine
    denominator := i.denominator * tenTo grid.toNat }

/-- The whole number `n` lies in the interval. -/
def contains (i : Neighbourhood) (n : Nat) : Bool :=
  let scaled := n * i.denominator
  (i.low < scaled && scaled < i.high) ||
    (i.endsIncluded && (scaled == i.low || scaled == i.high))

/-- The whole number in the interval that is nearest to the value, if there is one. -/
def nearest? (i : Neighbourhood) (tie : Tie) : Option Nat :=
  let below := i.value / i.denominator
  let twice := 2 * (i.value % i.denominator)
  let takeBelow := twice < i.denominator ||
    (twice == i.denominator && tie == .toEven && below % 2 == 0)
  match i.contains below, i.contains (below + 1) with
  | true, true => some (if takeBelow then below else below + 1)
  | true, false => some below
  | false, true => some (below + 1)
  | false, false => none

end Neighbourhood

/-- How many decimal digits a natural number has; zero has none. -/
def decimalWidth (n : Nat) : Nat := if n = 0 then 0 else (Nat.toDigits 10 n).length

/-- The exponent of the power of ten above a positive ratio. -/
def decimalLog (num den : Nat) : Int :=
  if den ≤ num then decimalWidth (num / den)
  else 1 - (decimalWidth ((den + num - 1) / num - 1) : Int)

/-- Seventeen digits always suffice. -/
def mostDigits : Nat := 17

/-- The shortest decimal that reads back as the absolute value of a finite number other than zero,
and the nearest one of that length. -/
def shortest (tie : Tie) (x : Number) : Decimal :=
  let interval := x.neighbourhood
  let top := decimalLog interval.value interval.denominator
  let hit := (List.range (mostDigits + 1)).findSome? fun (count : Nat) =>
    let grid := top - count
    (interval.onGrid grid).nearest? tie |>.map fun digits => ⟨digits, grid⟩
  hit.getD ⟨interval.value / interval.denominator, 0⟩

end TableQuery.Number
