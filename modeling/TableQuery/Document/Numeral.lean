import TableQuery.Number.Arithmetic
import TableQuery.Number.Reading

/-!
The numerals of documents and the numbers they stand for.

A numeral keeps as many leading digits as fit 64 bits; that significand becomes a double, which is
then multiplied or divided by powers of ten. Each of these steps rounds, so the last place can
differ from that of the nearest double. A numeral beyond the greatest double stands for no number.
-/

namespace TableQuery.Document

/-- The parts of a numeral. -/
structure Numeral where
  negative : Bool
  whole : List Char
  /-- The digits behind the point, none without a point. -/
  fraction : List Char
  exponentNegative : Bool
  exponent : List Char

namespace Numeral

/-! ## Significand -/

/-- The greatest significand. -/
def mostSignificand : Nat := 0xFFFFFFFFFFFFFFFF

/-- Appends digits to a significand as long as it fits, and counts the digits left over. -/
def appendDigits (significand : Nat) : List Char → Nat × Nat
  | [] => (significand, 0)
  | d :: rest =>
    let next := 10 * significand + (d.toNat - '0'.toNat)
    if mostSignificand < next then (significand, rest.length + 1) else appendDigits next rest

/-! ## Scaling -/

/-- The greatest power of ten that is finite. -/
def mostPower : Nat := 308

def powerOfTen (n : Nat) : Number := .ofDecimal false 1 1 n

/-- Divides by `10 ^ n`, in steps that are finite powers of ten. -/
def divideByPower (x : Number) (n : Nat) : Number :=
  if n ≤ mostPower then x.div (powerOfTen n)
  else if x.isZero then x
  else divideByPower (x.div (powerOfTen mostPower)) (n - mostPower)
termination_by n
decreasing_by simp only [mostPower] at *; omega

/-- Multiplies by `10 ^ n`, where the product is finite. -/
def multiplyByPower? (x : Number) (n : Nat) : Option Number :=
  if n ≤ mostPower then
    let product := x.mul (powerOfTen n)
    if product.isInfinite then none else some product
  else if x.isZero then some x
  else none

/-- The absolute value of a significand times a power of ten. -/
def scaled? (significand : Nat) (exponent : Int) : Option Number :=
  if exponent < 0 then some (divideByPower (.ofNat significand) exponent.natAbs)
  else multiplyByPower? (.ofNat significand) exponent.toNat

/-! ## Value -/

/-- An exponent part beyond this makes the value zero or too great, whatever the significand. -/
def mostExponent : Nat := 0x7FFFFFFF

/-- The absolute value. -/
def magnitude? (numeral : Numeral) : Option Number :=
  let (significand, wholeLeft) := appendDigits 0 numeral.whole
  let (significand, fractionLeft) := appendDigits significand numeral.fraction
  let exponent := Number.ofDigits numeral.exponent
  if mostExponent < exponent then
    if significand ≠ 0 ∧ !numeral.exponentNegative then none else some (.zero false)
  else
    let given : Int := if numeral.exponentNegative then -(exponent : Int) else exponent
    let fractionRead : Int := (numeral.fraction.length - fractionLeft : Nat)
    scaled? significand (given + wholeLeft - fractionRead)

/-- The number that a numeral stands for. -/
def number? (numeral : Numeral) : Option Number :=
  numeral.magnitude?.map fun n => if numeral.negative then n.negate else n

end Numeral

end TableQuery.Document
