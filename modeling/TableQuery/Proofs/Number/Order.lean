import TableQuery.Number.Basic

/-! # The two orders on numbers

The total order tells numbers apart by their bits. It never contradicts the order by value, and it
goes beyond it in two places only: it separates the zeros, and it has a place for NaNs. -/

namespace TableQuery.Number

variable {x y : Number}

/-! ## Order by value -/

theorem compare?_swap (x y : Number) : y.compare? x = (x.compare? y).map Ordering.swap := by
  unfold compare?
  rw [Bool.or_comm]
  split
  · rfl
  · rw [Option.map_some, Int.compare_swap]

theorem lessOrEqual_eq (x y : Number) : x.lessOrEqual y = (x.compare? y).any (· != .gt) := by
  unfold lessOrEqual less equal
  rcases x.compare? y with _ | _ | _ | _ <;> rfl

theorem greaterOrEqual_eq (x y : Number) : y.lessOrEqual x = (x.compare? y).any (· != .lt) := by
  rw [lessOrEqual_eq, compare?_swap]
  rcases x.compare? y with _ | _ | _ | _ <;> rfl

/-! ## Total order -/

/-- A sign and a magnitude make up all the bits. -/
theorem eq_of_fields (hs : x.isNegative = y.isNegative) (hm : x.magnitude = y.magnitude) :
    x = y := by
  have hx := x.bits.toNat_lt
  have hy := y.bits.toNat_lt
  have hsign : signWeight ≤ x.bits.toNat ↔ signWeight ≤ y.bits.toNat := decide_eq_decide.mp hs
  have hbits : x.bits.toNat = y.bits.toNat := by
    unfold magnitude at hm
    unfold signWeight at hsign hm
    omega
  obtain ⟨bits⟩ := x
  exact congrArg mk (UInt64.toNat_inj.mp hbits)

/-- The keys of both orders, by the sign. -/
theorem keys_of_sign (x : Number) :
    x.isNegative = true ∧ x.valueKey = -(x.magnitude : Int) ∧ x.totalKey = x.valueKey - 1 ∨
      x.isNegative = false ∧ x.valueKey = x.magnitude ∧ x.totalKey = x.valueKey := by
  unfold totalKey valueKey
  cases x.isNegative
  · exact .inr ⟨rfl, rfl, rfl⟩
  · exact .inl ⟨rfl, rfl, rfl⟩

theorem totalKey_inj : x.totalKey = y.totalKey ↔ x = y := by
  refine ⟨fun h => ?_, congrArg totalKey⟩
  rcases x.keys_of_sign with ⟨hx, _, _⟩ | ⟨hx, _, _⟩ <;>
    rcases y.keys_of_sign with ⟨hy, _, _⟩ | ⟨hy, _, _⟩ <;> first
    | exact eq_of_fields (hx.trans hy.symm) (by omega)
    | omega

theorem totalCompare_eq_eq : x.totalCompare y = .eq ↔ x = y := by
  rw [totalCompare, Int.compare_eq_eq, totalKey_inj]

theorem totalCompare_eq_lt : x.totalCompare y = .lt ↔ x.totalKey < y.totalKey := Int.compare_eq_lt

theorem compare?_eq_some {order : Ordering} (h : x.compare? y = some order) :
    compare x.valueKey y.valueKey = order := by
  unfold compare? at h
  split at h
  · cases h
  · exact Option.some.inj h

/-- What is less by value comes earlier in the total order. -/
theorem totalCompare_of_less (h : x.compare? y = some .lt) : x.totalCompare y = .lt := by
  have hkey := Int.compare_eq_lt.mp (compare?_eq_some h)
  refine totalCompare_eq_lt.mpr ?_
  rcases x.keys_of_sign with ⟨_, _, _⟩ | ⟨_, _, _⟩ <;>
    rcases y.keys_of_sign with ⟨_, _, _⟩ | ⟨_, _, _⟩ <;> omega

/-- Numbers of equal value are the same, or they are the two zeros. -/
theorem eq_or_zeros (h : x.compare? y = some .eq) :
    x = y ∨ x.isZero = true ∧ y.isZero = true := by
  have hkey := Int.compare_eq_eq.mp (compare?_eq_some h)
  unfold isZero
  rw [beq_iff_eq, beq_iff_eq]
  rcases x.keys_of_sign with ⟨hx, _, _⟩ | ⟨hx, _, _⟩ <;>
    rcases y.keys_of_sign with ⟨hy, _, _⟩ | ⟨hy, _, _⟩ <;> first
    | exact .inl (eq_of_fields (hx.trans hy.symm) (by omega))
    | exact .inr (by omega)

end TableQuery.Number
