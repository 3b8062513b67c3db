import TableQuery.Proofs.Scope
import TableQuery.Value.Function

/-! # Registered functions

A function that is registered is called under its name, however that is written, and takes the place
of what was registered under it before. All other names mean what they meant. -/

namespace TableQuery

namespace Registry

variable {registry : Registry}

/-! ## Lookups -/

theorem lookup_enter {α : Type} (name key : String) (function : α)
    (functions : List (String × α)) :
    (enter name function functions).lookup key =
      if key = Text.lowercase name then some function else functions.lookup key :=
  lookup_entered functions key (Text.lowercase name) function

theorem aggregate?_registerAggregate (function : Aggregate) (name : String) :
    (registry.registerAggregate function).aggregate? name =
      if Text.lowercase name = Text.lowercase function.name then some function
      else registry.aggregate? name :=
  lookup_enter function.name (Text.lowercase name) function registry.aggregates

theorem scalar?_registerScalar (function : ScalarFunction) (name : String) :
    (registry.registerScalar function).scalar? name =
      if Text.lowercase name = Text.lowercase function.name then some function
      else registry.scalar? name :=
  lookup_enter function.name (Text.lowercase name) function registry.scalars

@[simp] theorem scalar?_registerAggregate (function : Aggregate) (name : String) :
    (registry.registerAggregate function).scalar? name = registry.scalar? name := rfl

@[simp] theorem aggregate?_registerScalar (function : ScalarFunction) (name : String) :
    (registry.registerScalar function).aggregate? name = registry.aggregate? name := rfl

/-! ## Calls -/

/-- An aggregate is called without argument or, not with a star, with one. -/
theorem checkAggregate_ok {name : String} {args : Nat} {star : Bool} {function : Aggregate}
    (h : registry.checkAggregate name args star = .ok function) :
    registry.aggregate? name = some function ∧ (args = 0 ∨ args = 1 ∧ star = false) := by
  unfold checkAggregate at h
  split at h
  · cases h
  · next found hf =>
    split at h
    · next ha =>
      cases h
      refine ⟨hf, ?_⟩
      unfold Aggregate.accepts at ha
      cases star with
      | true =>
        simp only [Bool.true_or, if_true, Bool.true_and, Bool.and_eq_true, Bool.not_eq_true',
          decide_eq_false_iff_not] at ha
        exact .inl (by omega)
      | false =>
        split at ha
        · next h0 => exact .inl (by simpa using h0)
        · exact .inr ⟨by simpa using ha, rfl⟩
    · cases h

/-- Under any spelling of its name, a registered aggregate is the one that is called, if the call
has a form that it accepts. -/
theorem checkAggregate_registerAggregate {function : Aggregate} {name : String} {args : Nat}
    {star : Bool} (hn : Text.lowercase name = Text.lowercase function.name)
    (ha : function.accepts args star = true) :
    (registry.registerAggregate function).checkAggregate name args star = .ok function := by
  rw [checkAggregate, aggregate?_registerAggregate, if_pos hn]
  exact if_pos ha

/-- A registered scalar function gets the values of the call, if there are as many as it takes. -/
theorem callScalar_registerScalar {function : ScalarFunction} {name : String} {args : List Value}
    (hn : Text.lowercase name = Text.lowercase function.name)
    (hl : function.arity.1 ≤ args.length) (hm : args.length ≤ function.arity.2) :
    (registry.registerScalar function).callScalar name args = function.apply args := by
  rw [callScalar, scalar?_registerScalar, if_pos hn]
  have hfew : ¬args.length < function.arity.1 := Nat.not_lt.mpr hl
  have hmany : ¬function.arity.2 < args.length := Nat.not_lt.mpr hm
  simp [hfew, hmany]

end Registry

end TableQuery
