import TableQuery.Proofs.Number.Order
import TableQuery.Value.Operation

/-! # Bounds and comparisons

`between` asks for the order of a value to both of its bounds, and it is unknown where one of them
is missing. The two comparisons joined by `and` come to the same answer where both orders exist.
Where one is missing they never hold, but the other one alone can make them false. -/

namespace TableQuery.Value

/-- A number or null. -/
def ofNumber? : Option Number → Value
  | none => null
  | some n => number n

/-- Whether a value is at least the lower and at most the upper bound, as two comparisons. -/
def inBounds (value low high : Value) : Except QueryError Value := do
  let above ← binary .greaterOrEqual value low
  let below ← binary .lessOrEqual value high
  return connect .and (← above.truth?) (← below.truth?)

/-- The first value is less than, equal to or greater than the second one. -/
def Ordered (a b : Value) : Prop := ∃ order, a.compare? b = .ok (some order)

/-! ## Numbers and nulls -/

/-- The order of two numbers, none without two of them. -/
def numberOrder? (a b : Option Number) : Option Ordering := a.bind fun m => b.bind m.compare?

/-- The truth of a comparison that accepts some of the orders, unknown without two numbers. -/
def comparisonTruth (a b : Option Number) (accepted : Ordering → Bool) : Option Bool :=
  a.bind fun m => b.map fun n => (m.compare? n).any accepted

section

variable (a b : Option Number)

theorem compare?_ofNumber? : (ofNumber? a).compare? (ofNumber? b) = .ok (numberOrder? a b) := by
  cases a <;> cases b <;> rfl

theorem lessOrEqual_ofNumber? : binary .lessOrEqual (ofNumber? a) (ofNumber? b) =
    .ok (ofTruth (comparisonTruth a b (· != .gt))) := by
  cases a <;> cases b
  case some.some m n => exact congrArg (Except.ok ∘ boolean) (m.lessOrEqual_eq n)
  all_goals rfl

theorem greaterOrEqual_ofNumber? : binary .greaterOrEqual (ofNumber? a) (ofNumber? b) =
    .ok (ofTruth (comparisonTruth a b (· != .lt))) := by
  cases a <;> cases b
  case some.some m n => exact congrArg (Except.ok ∘ boolean) (m.greaterOrEqual_eq n)
  all_goals rfl

end

theorem truth?_ofTruth (truth : Option Bool) : (ofTruth truth).truth? = .ok truth := by
  cases truth <;> rfl

theorem inBounds_ofNumber? (v low high : Option Number) :
    inBounds (ofNumber? v) (ofNumber? low) (ofNumber? high) = .ok (connect .and
      (comparisonTruth v low (· != .lt)) (comparisonTruth v high (· != .gt))) := by
  rw [inBounds, greaterOrEqual_ofNumber?, lessOrEqual_ofNumber?]
  simp only [bind, Except.bind, truth?_ofTruth]
  rfl

variable {a b v low high : Option Number} {accepted : Ordering → Bool} {order : Ordering}

theorem ordered_ofNumber? :
    (ofNumber? a).Ordered (ofNumber? b) ↔ ∃ o, numberOrder? a b = some o := by
  simp [Ordered, compare?_ofNumber?]

/-! ## Comparisons with and without an order -/

theorem comparisonTruth_of_order (h : numberOrder? a b = some order) :
    comparisonTruth a b accepted = some (accepted order) := by
  cases a <;> cases b
  case some.some m n =>
    have horder : m.compare? n = some order := h
    simp [comparisonTruth, horder]
  all_goals cases h

/-- Where there is no order a comparison does not hold. -/
theorem comparisonTruth_of_none (h : numberOrder? a b = none) :
    comparisonTruth a b accepted ≠ some true := by
  cases a <;> cases b
  case some.some m n =>
    have horder : m.compare? n = none := h
    simp [comparisonTruth, horder]
  all_goals exact nofun

theorem between_of_orders {above below : Ordering} (hlow : numberOrder? v low = some above)
    (hhigh : numberOrder? v high = some below) :
    between (ofNumber? v) (ofNumber? low) (ofNumber? high) =
      .ok (boolean (above != .lt && below != .gt)) := by
  rw [between, compare?_ofNumber?, compare?_ofNumber?, hlow, hhigh]
  rfl

theorem between_of_none (h : numberOrder? v low = none ∨ numberOrder? v high = none) :
    between (ofNumber? v) (ofNumber? low) (ofNumber? high) = .ok null := by
  rw [between, compare?_ofNumber?, compare?_ofNumber?]
  rcases h with h | h
  · rw [h]
    rfl
  · rw [h]
    cases numberOrder? v low <;> rfl

/-! ## Conjunction -/

theorem connect_and_some (p q : Bool) : connect .and (some p) (some q) = boolean (p && q) := by
  cases p <;> cases q <;> rfl

/-- A conjunction with a part that does not hold is unknown or false. -/
theorem connect_and_of_ne_true {p q : Option Bool} (h : p ≠ some true ∨ q ≠ some true) :
    connect .and p q = null ∨ connect .and p q = boolean false := by
  rcases p with _ | _ | _ <;> rcases q with _ | _ | _ <;> simp_all [connect]

/-- For numbers and nulls, `between` is the conjunction of its two comparisons where the value has
an order to both bounds. Where it has none to one of them, `between` is unknown, and the conjunction
is unknown or false. -/
theorem between_as_conjunction (v low high : Option Number) :
    let value := ofNumber? v
    let least := ofNumber? low
    let most := ofNumber? high
    (value.Ordered least ∧ value.Ordered most →
        value.between least most = value.inBounds least most) ∧
      (¬(value.Ordered least ∧ value.Ordered most) →
        value.between least most = .ok null ∧
          (value.inBounds least most = .ok null ∨
            value.inBounds least most = .ok (boolean false))) := by
  intro value least most
  rw [ordered_ofNumber?, ordered_ofNumber?, inBounds_ofNumber?]
  constructor
  · rintro ⟨⟨above, habove⟩, below, hbelow⟩
    rw [between_of_orders habove hbelow, comparisonTruth_of_order habove,
      comparisonTruth_of_order hbelow, connect_and_some]
  · intro h
    have hnone : numberOrder? v low = none ∨ numberOrder? v high = none := by
      cases hlow : numberOrder? v low with
      | none => exact .inl rfl
      | some above =>
        refine .inr (Option.eq_none_iff_forall_ne_some.mpr fun below hbelow => ?_)
        exact h ⟨⟨above, hlow⟩, below, hbelow⟩
    refine ⟨between_of_none hnone, ?_⟩
    have hfails : comparisonTruth v low (· != .lt) ≠ some true ∨
        comparisonTruth v high (· != .gt) ≠ some true :=
      hnone.imp comparisonTruth_of_none comparisonTruth_of_none
    exact (connect_and_of_ne_true hfails).imp (congrArg Except.ok) (congrArg Except.ok)

/-- 2 has an order to 1 and to 3, and none to null. -/
theorem between_of_two :
    let number (n : Nat) : Value := .number (.ofNat n)
    between (number 2) (number 1) (number 3) = inBounds (number 2) (number 1) (number 3) ∧
      between (number 2) (number 1) null = .ok null := by
  intro number
  have hbounds := between_as_conjunction (some (.ofNat 2)) (some (.ofNat 1)) (some (.ofNat 3))
  have hnull := between_as_conjunction (some (.ofNat 2)) (some (.ofNat 1)) none
  refine ⟨hbounds.1 ⟨⟨.gt, rfl⟩, .lt, rfl⟩, (hnull.2 ?_).1⟩
  rintro ⟨-, order, horder⟩
  cases horder

/-- 1 has no order to null, and it is less than 2. -/
theorem between_null_unlike_conjunction :
    ¬∀ v low high : Option Number, between (ofNumber? v) (ofNumber? low) (ofNumber? high) =
      inBounds (ofNumber? v) (ofNumber? low) (ofNumber? high) := by
  intro h
  have hnull : (.ok null : Except QueryError Value) = .ok (boolean false) :=
    h (some (.ofNat 1)) (some (.ofNat 2)) none
  cases hnull

end TableQuery.Value
