import TableQuery.Number.Basic

/-!
The double nearest to a ratio of naturals. A ratio halfway between two doubles goes to the one with
the even significand, and one beyond the largest finite double by half a step or more is infinite.
Arithmetic and the reading of decimals round here and nowhere else.
-/

namespace TableQuery.Number

/-- The quotient rounded to nearest, a half to the even neighbour. -/
def roundHalfEven (num den : Nat) : Nat :=
  let quotient := num / den
  let twice := 2 * (num % den)
  if twice < den then quotient
  else if den < twice then quotient + 1
  else quotient + quotient % 2

/-- The quotient rounded to nearest, a half upwards. -/
def roundHalfUp (num den : Nat) : Nat :=
  let quotient := num / den
  if 2 * (num % den) < den then quotient else quotient + 1

/-- Numerator and denominator of `num / den * 2 ^ shift`. -/
def scaleByTwo (num den : Nat) (shift : Int) : Nat × Nat :=
  (num <<< shift.toNat, den <<< (-shift).toNat)

/-- The exponent of the power of two at or below a positive ratio. -/
def ratioLog (num den : Nat) : Int :=
  let estimate : Int := (Nat.log2 num : Int) - Nat.log2 den
  let (n, d) := scaleByTwo num den (-estimate)
  if d ≤ n then estimate else estimate - 1

/-- The double nearest to `num / den`, for a positive `den`. -/
def ofRatio (negative : Bool) (num den : Nat) : Number :=
  if num = 0 then zero negative
  else
    -- the significand has 53 bits, fewer where the exponent can go no lower
    let exponent := max (ratioLog num den - 52) leastExponent
    let (n, d) := scaleByTwo num den (-exponent)
    -- a significand that rounds up to 54 bits carries into the exponent field by itself
    let field := (exponent - leastExponent).toNat * hiddenBit + roundHalfEven n d
    if infiniteMagnitude ≤ field then infinity negative else ofFields negative field

/-- The double nearest to a natural number. -/
def ofNat (n : Nat) : Number := ofRatio false n 1

/-- The double nearest to `significand * 2 ^ exponent`. -/
def ofScaled (negative : Bool) (significand : Nat) (exponent : Int) : Number :=
  let (n, d) := scaleByTwo significand 1 exponent
  ofRatio negative n d

/-- How far the decimal exponent of a nonzero double can lie from zero, with room to spare. -/
def decimalReach : Int := 400

/-- A power of ten. -/
def tenTo (n : Nat) : Nat := Nat.pow 10 n

/-- The double nearest to `digits * 10 ^ exponent`, where `digits` has at most `width` digits. A
value above `10 ^ 400` is infinite and one below `10 ^ -400` is zero without being computed. -/
def ofDecimal (negative : Bool) (digits width : Nat) (exponent : Int) : Number :=
  if digits = 0 then zero negative
  else if decimalReach < exponent then infinity negative
  else if exponent + width < -decimalReach then zero negative
  else ofRatio negative (digits * tenTo exponent.toNat) (tenTo (-exponent).toNat)

end TableQuery.Number
