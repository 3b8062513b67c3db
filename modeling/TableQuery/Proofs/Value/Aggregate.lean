import TableQuery.Proofs.Number.Exact
import TableQuery.Value.Function

/-! # Aggregates of values

Aggregates pass over nulls. `count` counts what is left, and `sum` and `avg` go through it from left
to right: the first value that is no number is what they fail with, and without one the average is
the sum divided by the count. -/

namespace TableQuery

/-- Neither null nor a number, so that it cannot be added up. -/
def Value.isStray (v : Value) : Bool := v.kind != .null && v.kind != .number

/-- The second list is the first one with nulls in front of, between or behind its values. -/
inductive NullsInserted : List Value → List Value → Prop where
  | nil : NullsInserted [] []
  | null {vs ws : List Value} (h : NullsInserted vs ws) : NullsInserted vs (.null :: ws)
  | value {vs ws : List Value} (v : Value) (h : NullsInserted vs ws) :
    NullsInserted (v :: vs) (v :: ws)

theorem NullsInserted.filter_eq {vs ws : List Value} (h : NullsInserted vs ws) :
    ws.filter (!·.isNull) = vs.filter (!·.isNull) := by
  induction h with
  | nil => rfl
  | null _ ih => exact ih
  | value v _ ih => rw [List.filter_cons, List.filter_cons, ih]

namespace Aggregate

variable {vs : List Value}

/-! ## Nulls -/

theorem numbers_filter (name : String) (vs : List Value) :
    numbers name (vs.filter (!·.isNull)) = numbers name vs := by
  induction vs with
  | nil => rfl
  | cons v rest ih =>
    cases v with
    | null => exact ih
    | number n => exact congrArg (Except.map (n :: ·)) ih
    | text | boolean => rfl

theorem count_filter (vs : List Value) :
    count.apply (.values (vs.filter (!·.isNull))) = count.apply (.values vs) := by
  simp [count, List.filter_filter]

theorem ofNumbers_filter (name : String) (make : List Number → Number) (vs : List Value) :
    (ofNumbers name make).apply (.values (vs.filter (!·.isNull))) =
      (ofNumbers name make).apply (.values vs) := by
  simp only [ofNumbers, numbers_filter]

theorem apply_filter {function : Aggregate} (h : function ∈ all) (vs : List Value) :
    function.apply (.values (vs.filter (!·.isNull))) = function.apply (.values vs) := by
  simp only [all, List.mem_cons, List.not_mem_nil, or_false] at h
  obtain rfl | rfl | rfl := h
  · exact count_filter vs
  · exact ofNumbers_filter "sum" total vs
  · exact ofNumbers_filter "avg" mean vs

/-! ## Numbers -/

/-- All numbers among the values, unless a value is neither null nor a number; the first such value
is what the message tells of. -/
theorem numbers_eq (name : String) (vs : List Value) :
    numbers name vs = match vs.find? (·.isStray) with
      | some v => .error (.type (.aggregated name v.kind))
      | none => .ok (vs.filterMap (·.number?)) := by
  induction vs with
  | nil => rfl
  | cons v rest ih =>
    cases v with
    | null => exact ih
    | number n =>
      rw [numbers, ih, List.find?_cons_of_neg Bool.false_ne_true, List.filterMap_cons]
      cases rest.find? (·.isStray) <;> rfl
    | text | boolean => rfl

/-- Without strays, what is not null is a number. -/
theorem length_numbers (h : vs.find? (·.isStray) = none) :
    (vs.filter (!·.isNull)).length = (vs.filterMap (·.number?)).length := by
  induction vs with
  | nil => rfl
  | cons v rest ih =>
    have hv := List.find?_eq_none.mp h
    have hrest := ih (List.find?_eq_none.mpr fun u hu => hv u (List.mem_cons_of_mem _ hu))
    cases v with
    | null => exact hrest
    | number n => exact congrArg (· + 1) hrest
    | text | boolean => exact absurd rfl (hv _ List.mem_cons_self)

theorem total_cons (first : Number) (rest : List Number) :
    total (first :: rest) = rest.foldl Number.add first := by
  rw [total, List.foldl_cons, Number.negativeZero_add]

/-! ## Outcomes -/

section

variable {name : String} {make : List Number → Number}

theorem apply_of_stray {v : Value} (h : vs.find? (·.isStray) = some v) :
    (ofNumbers name make).apply (.values vs) = .error (.type (.aggregated name v.kind)) := by
  have hnumbers := numbers_eq name vs
  rw [h] at hnumbers
  rw [ofNumbers]
  dsimp only
  rw [hnumbers]
  rfl

theorem apply_of_numbers (h : vs.find? (·.isStray) = none) :
    (ofNumbers name make).apply (.values vs) =
      .ok (.number (make (vs.filterMap (·.number?)))) := by
  have hnumbers := numbers_eq name vs
  rw [h] at hnumbers
  rw [ofNumbers]
  dsimp only
  rw [hnumbers]
  rfl

theorem fails_iff (vs : List Value) :
    (∃ e, (ofNumbers name make).apply (.values vs) = .error e) ↔ ∃ v ∈ vs, v.isStray := by
  cases h : vs.find? (·.isStray) with
  | some v =>
    have hv : v ∈ vs ∧ v.isStray := ⟨List.mem_of_find?_eq_some h, List.find?_some h⟩
    exact iff_of_true ⟨_, apply_of_stray h⟩ ⟨v, hv⟩
  | none =>
    refine iff_of_false ?_ fun ⟨v, hv, hs⟩ => List.find?_eq_none.mp h v hv hs
    rintro ⟨e, he⟩
    rw [apply_of_numbers h] at he
    cases he

end

/-- Nulls change no aggregate. `count` is the number of the other values; `sum` and `avg` fail if
and only if one of these is no number, and the message tells the type of the first such value.
Otherwise, if there is a number at all, the sum adds the numbers up from left to right, and the
average is the sum divided by the count. -/
theorem aggregates_ignore_nulls (vs : List Value) :
    (∀ ws, NullsInserted vs ws → ∀ function ∈ all,
      function.apply (.values ws) = function.apply (.values vs)) ∧
    count.apply (.values vs) = .ok (.number (.ofNat (vs.filter (· ≠ .null)).length)) ∧
    (∀ function ∈ [sum, avg],
      ((∃ e, function.apply (.values vs) = .error e) ↔ ∃ v ∈ vs, v.isStray) ∧
      ∀ v, vs.find? (·.isStray) = some v → ∃ e, function.apply (.values vs) = .error e ∧
        e.message =
          "Type error: " ++ (function.name ++ " expects numbers, got " ++ v.kind.name)) ∧
    ∀ first rest, vs.filterMap (·.number?) = first :: rest →
      (∃ v, avg.apply (.values vs) = .ok v) →
      ∃ total size, sum.apply (.values vs) = .ok (.number total) ∧
        count.apply (.values vs) = .ok (.number size) ∧
        avg.apply (.values vs) = .ok (.number (total.div size)) ∧
        total = rest.foldl Number.add first := by
  have hsize : count.apply (.values vs) =
      .ok (.number (.ofNat (vs.filter (!·.isNull)).length)) := rfl
  have hnull : ∀ v : Value, (!v.isNull) = decide (v ≠ .null) := by
    intro v
    cases v <;> rfl
  refine ⟨fun ws h function hf => ?_, ?_, List.forall_mem_cons.mpr ⟨?_, ?_⟩, ?_⟩
  · rw [← apply_filter hf, h.filter_eq, apply_filter hf]
  · rw [hsize, funext hnull]
  · exact ⟨fails_iff vs, fun v hv => ⟨_, apply_of_stray hv, rfl⟩⟩
  · exact List.forall_mem_singleton.mpr
      ⟨fails_iff vs, fun v hv => ⟨_, apply_of_stray hv, rfl⟩⟩
  · rintro first rest hn ⟨v, hv⟩
    have hnone : vs.find? (·.isStray) = none := by
      refine Option.eq_none_iff_forall_ne_some.mpr fun u hu => ?_
      rw [avg, apply_of_stray hu] at hv
      cases hv
    refine ⟨_, _, apply_of_numbers hnone, hsize, ?_, ?_⟩
    · rw [avg, apply_of_numbers hnone, length_numbers hnone, hn]
      rfl
    · rw [hn, total_cons]

/-- A null between 1 and 2 leaves their average as it is, and a text is told of. -/
theorem average_of_one_and_two :
    let one : Value := .number (.ofNat 1)
    let two : Value := .number (.ofNat 2)
    avg.apply (.values [one, .null, two]) = avg.apply (.values [one, two]) ∧
      (∃ total size, sum.apply (.values [one, two]) = .ok (.number total) ∧
        count.apply (.values [one, two]) = .ok (.number size) ∧
        avg.apply (.values [one, two]) = .ok (.number (total.div size)) ∧
        total = [Number.ofNat 2].foldl Number.add (.ofNat 1)) ∧
      ∃ e, sum.apply (.values [one, .text "a", .boolean true]) = .error e ∧
        e.message = "Type error: sum expects numbers, got text" := by
  intro one two
  obtain ⟨hnulls, -, -, hnumbers⟩ := aggregates_ignore_nulls [one, two]
  obtain ⟨-, -, hstray, -⟩ := aggregates_ignore_nulls [one, .text "a", .boolean true]
  have havg : avg ∈ all := List.mem_cons_of_mem _ (List.mem_cons_of_mem _ List.mem_cons_self)
  exact ⟨hnulls _ (.value _ (.null (.value _ .nil))) avg havg, hnumbers _ _ rfl ⟨_, rfl⟩,
    (hstray sum List.mem_cons_self).2 (.text "a") rfl⟩

end Aggregate

end TableQuery
