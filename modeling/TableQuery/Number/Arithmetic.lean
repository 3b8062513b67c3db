import TableQuery.Number.Rounding

/-!
Arithmetic on doubles: the exact result of the operation on the values, rounded once. A NaN operand
is passed on, the left one first; an operation that has no value gives the negative NaN.
-/

namespace TableQuery.Number

/-- The result of an operation without value, such as infinity minus infinity. -/
def undefined : Number := nan true

/-- The NaN to pass on, if an operand is one. -/
def operandNaN? (x y : Number) : Option Number :=
  if x.isNaN then some x else if y.isNaN then some y else none

/-- A finite number as an integer multiple of `2 ^ unit`, for a `unit` at or below its exponent. -/
def atUnit (x : Number) (unit : Int) : Int :=
  let steps : Int := (x.significand <<< (x.exponent - unit).toNat : Nat)
  if x.isNegative then -steps else steps

/-! ## The four operations -/

/-- The sum of finite numbers. It is the negative zero only where both operands are. -/
def addFinite (x y : Number) : Number :=
  let unit := min x.exponent y.exponent
  let total := x.atUnit unit + y.atUnit unit
  if total = 0 then zero (x.isZero && y.isZero && x.isNegative && y.isNegative)
  else ofScaled (total < 0) total.natAbs unit

def add (x y : Number) : Number :=
  match operandNaN? x y with
  | some n => n
  | none =>
    if x.isInfinite then
      if y.isInfinite && x.isNegative != y.isNegative then undefined else x
    else if y.isInfinite then y
    else addFinite x y

def sub (x y : Number) : Number :=
  -- the sign of a NaN on the right is not flipped
  if y.isNaN then (operandNaN? x y).getD y else add x y.negate

def mul (x y : Number) : Number :=
  let negative := x.isNegative != y.isNegative
  match operandNaN? x y with
  | some n => n
  | none =>
    if x.isInfinite || y.isInfinite then
      if x.isZero || y.isZero then undefined else infinity negative
    else ofScaled negative (x.significand * y.significand) (x.exponent + y.exponent)

def div (x y : Number) : Number :=
  let negative := x.isNegative != y.isNegative
  match operandNaN? x y with
  | some n => n
  | none =>
    if x.isInfinite then
      if y.isInfinite then undefined else infinity negative
    else if y.isInfinite then zero negative
    else if y.isZero then
      if x.isZero then undefined else infinity negative
    else
      let (n, d) := scaleByTwo x.significand y.significand (x.exponent - y.exponent)
      ofRatio negative n d

/-- The remainder of division truncated towards zero. It is exact and has the sign of `x`. -/
def rem (x y : Number) : Number :=
  match operandNaN? x y with
  | some n => n
  | none =>
    if x.isInfinite || y.isZero then undefined
    else if y.isInfinite then x
    else
      let unit := min x.exponent y.exponent
      let left := (x.atUnit unit).natAbs
      let right := (y.atUnit unit).natAbs
      ofScaled x.isNegative (left % right) unit

/-- The power by repeated squaring, each product rounded. The factors are taken from the lowest bit
of the exponent upwards. -/
def power (base : Number) (n : Nat) : Number := go base n (ofNat 1)
where
  /-- Multiplies `result` by the powers of `base` that the bits of `n` name. -/
  go (base : Number) (n : Nat) (result : Number) : Number :=
    let result := if n % 2 = 1 then result.mul base else result
    if h : n / 2 = 0 then result else go (base.mul base) (n / 2) result
  termination_by n
  decreasing_by omega

/-! ## Whole numbers -/

/-- The value has no fractional part; infinities and NaNs do not count as whole. -/
def isWhole (x : Number) : Bool :=
  x.isFinite && x.significand % (1 <<< (-x.exponent).toNat) == 0

/-- A finite number with its absolute value turned into a whole number by `round`, which is given
the value's numerator and denominator. -/
def mapWhole (round : Nat → Nat → Nat) (x : Number) : Number :=
  if x.isFinite then
    let (n, d) := scaleByTwo x.significand 1 x.exponent
    ofRatio x.isNegative (round n d) 1
  else x

/-- Drops the fractional part. -/
def truncate (x : Number) : Number := x.mapWhole (· / ·)

/-- The nearest whole number, a half away from zero. -/
def roundHalfAway (x : Number) : Number := x.mapWhole roundHalfUp

/-- The natural number that a whole number without minus stands for. The negative zero stands for
0 as well. -/
def toNat? (x : Number) : Option Nat :=
  if x.isWhole && (ofNat 0).lessOrEqual x then
    some (x.significand <<< x.exponent.toNat >>> (-x.exponent).toNat)
  else none

end TableQuery.Number
