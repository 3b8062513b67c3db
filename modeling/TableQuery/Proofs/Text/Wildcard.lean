import TableQuery.Text.Wildcard

/-! # Flags of suffixes

A pattern has one flag for each suffix of a value, so that no flag is ever missing where one is
looked up. -/

namespace TableQuery.Text.Wildcard

theorem suffixFlags_ne_nil (value pattern : List Char) : suffixFlags value pattern ≠ [] := by
  induction pattern with
  | nil => simp [suffixFlags]
  | cons p pattern ih =>
    simp only [suffixFlags]
    split
    · obtain ⟨flag, rest, hflags⟩ := List.exists_cons_of_ne_nil ih
      rw [hflags]
      exact List.cons_ne_nil _ _
    · simp

/-- A longer value has a flag of its own in front of those of its suffixes. -/
theorem suffixFlags_cons (c : Char) (value pattern : List Char) :
    ∃ flag, suffixFlags (c :: value) pattern = flag :: suffixFlags value pattern := by
  induction pattern with
  | nil => exact ⟨false, rfl⟩
  | cons p pattern ih =>
    obtain ⟨flag, hflag⟩ := ih
    simp only [suffixFlags]
    split
    · exact ⟨flag || (anyLater (suffixFlags value pattern)).headD false, by rw [hflag]; rfl⟩
    · obtain ⟨first, rest, hflags⟩ := List.exists_cons_of_ne_nil (suffixFlags_ne_nil value pattern)
      refine ⟨accepts p c && first, ?_⟩
      rw [hflag, List.tail_cons, hflags]
      rfl

theorem length_suffixFlags (value pattern : List Char) :
    (suffixFlags value pattern).length = value.length + 1 := by
  induction value with
  | nil =>
    induction pattern with
    | nil => rfl
    | cons p pattern ih =>
      obtain ⟨flag, hflags⟩ := List.length_eq_one_iff.mp ih
      simp only [suffixFlags]
      split
      · rw [hflags]
        rfl
      · rfl
  | cons c value ih =>
    obtain ⟨flag, hflag⟩ := suffixFlags_cons c value pattern
    rw [hflag, List.length_cons, ih, List.length_cons]

end TableQuery.Text.Wildcard
