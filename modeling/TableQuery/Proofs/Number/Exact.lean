import TableQuery.Number.Arithmetic

/-! # Rounding a double

A finite double is a whole multiple of a power of two, and to round this value gives the double
back. So the sum of a number with the negative zero is the number itself. -/

namespace TableQuery.Number

variable (x : Number)

/-! ## Fields -/

/-- How far the exponent lies above the least one. -/
def steps : Nat := (x.exponent - leastExponent).toNat

theorem exponent_eq : x.exponent = leastExponent + x.steps := by
  unfold steps exponent leastExponent hiddenBit
  split <;> omega

theorem magnitude_eq : x.magnitude = x.steps * hiddenBit + x.significand := by
  unfold steps significand exponent leastExponent hiddenBit
  split <;> omega

/-- A significand has 53 bits, fewer only with the least exponent. -/
theorem significand_bounds :
    x.significand < 2 * hiddenBit ∧ (x.steps = 0 ∨ hiddenBit ≤ x.significand) := by
  unfold steps significand exponent leastExponent hiddenBit
  split <;> omega

theorem ofFields_self : ofFields x.isNegative x.magnitude = x := by
  have hbits := x.bits.toNat_lt
  have hfields : (if x.isNegative then signWeight else 0) + x.magnitude % signWeight =
      x.bits.toNat := by
    rw [magnitude, Nat.mod_mod]
    by_cases hs : signWeight ≤ x.bits.toNat
    · have hneg : x.isNegative := decide_eq_true hs
      rw [if_pos hneg]
      unfold signWeight at hs ⊢
      omega
    · have hneg : ¬x.isNegative := fun h => hs (of_decide_eq_true h)
      rw [if_neg hneg, Nat.zero_add]
      exact Nat.mod_eq_of_lt (Nat.not_le.mp hs)
  rw [ofFields, hfields]
  exact congrArg mk UInt64.ofNat_toNat

variable {x}

theorem isZero_of_significand (h : x.significand = 0) : x.isZero := by
  have hm := x.magnitude_eq
  have hs := x.significand_bounds.2
  unfold hiddenBit at hm hs
  rw [isZero, beq_iff_eq]
  omega

theorem zero_of_isZero (h : x.isZero) : zero x.isNegative = x := by
  have hm : x.magnitude = 0 := by simpa [isZero] using h
  rw [zero, ← hm, ofFields_self]

/-! ## Rounding -/

theorem roundHalfEven_mul (q : Nat) {d : Nat} (hd : 0 < d) : roundHalfEven (q * d) d = q := by
  simp [roundHalfEven, Nat.mul_div_cancel q hd, hd]

theorem shiftLeft_ne_zero {n : Nat} (h : n ≠ 0) (k : Nat) : n <<< k ≠ 0 :=
  mt Nat.shiftLeft_eq_zero_iff.mp h

theorem log2_shiftLeft {n : Nat} (h : n ≠ 0) (k : Nat) : (n <<< k).log2 = n.log2 + k := by
  have hlow := Nat.log2_self_le h
  have hhigh := @Nat.lt_log2_self n
  rw [Nat.log2_eq_iff (shiftLeft_ne_zero h k), Nat.shiftLeft_eq, Nat.add_right_comm, Nat.pow_add,
    Nat.pow_add _ (n.log2 + 1)]
  exact ⟨Nat.mul_le_mul_right _ hlow, Nat.mul_lt_mul_of_pos_right hhigh (Nat.two_pow_pos k)⟩

/-- The logarithm of a ratio whose denominator is a power of two. -/
theorem ratioLog_shiftLeft {num : Nat} (h : num ≠ 0) (e : Nat) :
    ratioLog num (1 <<< e) = num.log2 - e := by
  have hden : (1 <<< e).log2 = e := by
    rw [log2_shiftLeft Nat.one_ne_zero]
    simp [Nat.log2_def]
  have hshift : e + (-(-((num.log2 : Int) - e))).toNat =
      num.log2 + (-((num.log2 : Int) - e)).toNat := by omega
  have hle : (1 <<< e) <<< (-(-((num.log2 : Int) - e))).toNat ≤
      num <<< (-((num.log2 : Int) - e)).toNat := by
    rw [← Nat.shiftLeft_add, hshift, Nat.shiftLeft_add, Nat.shiftLeft_eq, Nat.shiftLeft_eq num,
      Nat.shiftLeft_eq 1, Nat.one_mul]
    exact Nat.mul_le_mul_right _ (Nat.log2_self_le h)
  simp only [ratioLog, scaleByTwo, hden]
  exact if_pos hle

/-- A number that is not zero is rounded to a multiple of its own power of two. -/
theorem roundingExponent_self (h : x.significand ≠ 0) :
    max (ratioLog (x.significand <<< x.steps) (1 <<< 1074) - 52) leastExponent = x.exponent := by
  obtain ⟨hbits, hsteps⟩ := x.significand_bounds
  have hmost : x.significand.log2 < 53 := (Nat.log2_lt h).mpr hbits
  rw [ratioLog_shiftLeft (shiftLeft_ne_zero h _), log2_shiftLeft h, exponent_eq, leastExponent]
  rcases hsteps with hsteps | hleast
  · omega
  · have hleast : 52 ≤ x.significand.log2 := (Nat.le_log2 h).mpr hleast
    omega

/-- Scaled to that power of two, its value is the significand. -/
theorem scaleByTwo_self :
    scaleByTwo (x.significand <<< x.steps) (1 <<< 1074) (-x.exponent) =
      (x.significand * (1 <<< 1074) <<< x.exponent.toNat, (1 <<< 1074) <<< x.exponent.toNat) := by
  have hshift : x.steps + (-x.exponent).toNat = 1074 + x.exponent.toNat := by
    rw [exponent_eq, leastExponent]
    omega
  have hnum : (x.significand <<< x.steps) <<< (-x.exponent).toNat =
      x.significand * (1 <<< 1074) <<< x.exponent.toNat := by
    rw [← Nat.shiftLeft_add, hshift, ← Nat.shiftLeft_add, Nat.shiftLeft_eq,
      Nat.shiftLeft_eq 1, Nat.one_mul]
  rw [scaleByTwo, hnum, Int.neg_neg]

/-- The value of a finite number is rounded to the number. -/
theorem ofScaled_self (h : x.isFinite) :
    ofScaled x.isNegative (x.significand <<< x.steps) leastExponent = x := by
  have hfinite : x.magnitude < infiniteMagnitude := by simpa [isFinite] using h
  have hden : 0 < (1 <<< 1074 : Nat) <<< x.exponent.toNat :=
    Nat.pos_of_ne_zero (shiftLeft_ne_zero (shiftLeft_ne_zero Nat.one_ne_zero _) _)
  have hfield : (x.exponent - leastExponent).toNat * hiddenBit + x.significand = x.magnitude :=
    x.magnitude_eq.symm
  change ofRatio x.isNegative (x.significand <<< x.steps) (1 <<< 1074) = x
  by_cases hzero : x.significand = 0
  · have hself := zero_of_isZero (isZero_of_significand hzero)
    rw [ofRatio, hzero, Nat.zero_shiftLeft, if_pos rfl, hself]
  · rw [ofRatio, if_neg (shiftLeft_ne_zero hzero _)]
    simp only [roundingExponent_self hzero, scaleByTwo_self, roundHalfEven_mul _ hden, hfield]
    rw [if_neg (by omega), ofFields_self]

/-! ## Sums -/

/-- The negative zero changes no finite number, neither zero among them. -/
theorem addFinite_zero (h : x.isFinite) : addFinite (zero true) x = x := by
  have hunit : min (zero true).exponent x.exponent = leastExponent := by
    rw [x.exponent_eq]
    exact Int.min_eq_left (Int.le_add_of_nonneg_right (Int.natCast_nonneg _))
  have hnothing : (zero true).atUnit leastExponent = 0 := by decide
  have htotal : x.atUnit leastExponent = if x.isNegative
      then -((x.significand <<< x.steps : Nat) : Int) else (x.significand <<< x.steps : Nat) := rfl
  unfold addFinite
  simp only [hunit, hnothing, Int.zero_add, htotal]
  by_cases hzero : x.significand = 0
  · have hx := isZero_of_significand hzero
    have hsign : ((zero true).isZero && x.isZero && (zero true).isNegative && x.isNegative) =
        x.isNegative := by
      rw [hx]
      exact Bool.true_and _
    rw [hsign, hzero, Nat.zero_shiftLeft, Int.natCast_zero, Int.neg_zero, ite_self, if_pos rfl,
      zero_of_isZero hx]
  · have hpos := Nat.pos_of_ne_zero (shiftLeft_ne_zero hzero x.steps)
    have hself := ofScaled_self h
    generalize x.significand <<< x.steps = n at hpos hself ⊢
    have hn : n ≠ 0 := Nat.ne_of_gt hpos
    have hsign : decide ((n : Int) < 0) = false := decide_eq_false (by omega)
    cases hneg : x.isNegative with
    | true =>
      rw [hneg] at hself
      simp [hn, hpos, hself]
    | false =>
      rw [hneg] at hself
      simp [hn, hsign, hself]

/-- The negative zero changes no number. -/
theorem negativeZero_add (x : Number) : add (zero true) x = x := by
  have hnan : (zero true).isNaN = false := by decide
  have hinfinite : (zero true).isInfinite = false := by decide
  simp only [add, operandNaN?, hnan, hinfinite, Bool.false_eq_true, if_false]
  rcases Nat.lt_trichotomy x.magnitude infiniteMagnitude with hlt | heq | hgt
  · have hx : x.isNaN = false := decide_eq_false (Nat.not_lt.mpr (Nat.le_of_lt hlt))
    have hi : x.isInfinite = false := beq_eq_false_iff_ne.mpr (Nat.ne_of_lt hlt)
    simp only [hx, hi, Bool.false_eq_true, if_false]
    exact addFinite_zero (decide_eq_true hlt)
  · have hx : x.isNaN = false := decide_eq_false (Nat.not_lt.mpr (Nat.le_of_eq heq))
    have hi : x.isInfinite = true := beq_iff_eq.mpr heq
    simp only [hx, hi, Bool.false_eq_true, if_false, if_true]
  · have hx : x.isNaN = true := decide_eq_true hgt
    simp only [hx, if_true]

end TableQuery.Number
