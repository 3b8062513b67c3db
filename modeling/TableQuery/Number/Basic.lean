/-!
Double-precision numbers as their 64 bits: one sign, then a magnitude that is the biased exponent
followed by the fraction. Keeping the bits themselves, and no built-in floating type, makes equality
of numbers decidable and lets every operation be defined by exact arithmetic on naturals.

Among numbers of one sign the magnitude field grows with the value, so the two orders on numbers
compare that field alone. Queries compare by value: both zeros are equal and a NaN is unordered with
everything, itself included. Sorting uses a total order instead, in which the negative zero comes
before the positive one and the NaNs lie beyond the infinities of their sign.
-/

namespace TableQuery

/-- A double-precision number. -/
structure Number where
  bits : UInt64
  deriving DecidableEq, Repr, Inhabited

namespace Number

/-! ## Fields -/

/-- The weight of the sign bit. -/
def signWeight : Nat := 0x8000000000000000

/-- The weight of the lowest exponent bit, which is also the hidden bit of a normal significand. -/
def hiddenBit : Nat := 0x10000000000000

/-- The magnitude field of both infinities; every larger one is a NaN. -/
def infiniteMagnitude : Nat := 2047 * hiddenBit

/-- The sign bit is set. -/
def isNegative (x : Number) : Bool := signWeight ≤ x.bits.toNat

/-- Exponent and fraction fields together. -/
def magnitude (x : Number) : Nat := x.bits.toNat % signWeight

def isNaN (x : Number) : Bool := infiniteMagnitude < x.magnitude

def isInfinite (x : Number) : Bool := x.magnitude == infiniteMagnitude

def isFinite (x : Number) : Bool := x.magnitude < infiniteMagnitude

/-- Either zero. -/
def isZero (x : Number) : Bool := x.magnitude == 0

/-- The number with the given sign and magnitude field. -/
def ofFields (negative : Bool) (magnitude : Nat) : Number :=
  ⟨UInt64.ofNat ((if negative then signWeight else 0) + magnitude % signWeight)⟩

/-! ## Finite numbers as significand times a power of two -/

/-- The smallest exponent of a significand, shared by subnormal numbers. -/
def leastExponent : Int := -1074

/-- The integer `s` of a finite number's absolute value `s * 2 ^ x.exponent`. -/
def significand (x : Number) : Nat :=
  if x.magnitude < hiddenBit then x.magnitude else x.magnitude % hiddenBit + hiddenBit

/-- The power of two that scales the significand. -/
def exponent (x : Number) : Int :=
  if x.magnitude < hiddenBit then leastExponent
  else (x.magnitude / hiddenBit : Nat) + leastExponent - 1

/-! ## Particular numbers -/

def zero (negative : Bool) : Number := ofFields negative 0

def infinity (negative : Bool) : Number := ofFields negative infiniteMagnitude

/-- The quiet NaN without payload. -/
def nan (negative : Bool) : Number := ofFields negative (infiniteMagnitude + hiddenBit / 2)

/-! ## Sign -/

/-- Flips the sign bit, that of a NaN too. -/
def negate (x : Number) : Number := ofFields (!x.isNegative) x.magnitude

/-- Clears the sign bit. -/
def abs (x : Number) : Number := ofFields false x.magnitude

/-! ## Order by value -/

/-- Signed magnitude: it orders the numbers that are not NaN as their values do. -/
def valueKey (x : Number) : Int := if x.isNegative then -(x.magnitude : Int) else x.magnitude

/-- The order of two values, none where one of them is a NaN. -/
def compare? (x y : Number) : Option Ordering :=
  if x.isNaN || y.isNaN then none else some (compare x.valueKey y.valueKey)

def equal (x y : Number) : Bool := x.compare? y == some .eq

def less (x y : Number) : Bool := x.compare? y == some .lt

def lessOrEqual (x y : Number) : Bool := x.less y || x.equal y

/-! ## Total order -/

/-- Signed magnitude with the negative numbers moved one down, which separates the zeros. -/
def totalKey (x : Number) : Int := if x.isNegative then -(x.magnitude : Int) - 1 else x.magnitude

def totalCompare (x y : Number) : Ordering := compare x.totalKey y.totalKey

end Number

end TableQuery
