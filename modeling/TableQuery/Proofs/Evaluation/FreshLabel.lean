import TableQuery.Evaluation.Clause
import TableQuery.Proofs.Evaluation.Run
import TableQuery.Proofs.Scope

/-! # Labels are free when they are given

The search for a free number strikes off a label that is in use before it tries the next one. No
struck-off label comes back, since labels with different numbers differ; so the number that the
search stops at has a label that was free from the beginning. A label of the query's own is given
only after a look at all frames. -/

namespace TableQuery

namespace FreshLabel

theorem numbered_injective (stem : String) {i j : Nat} (h : numbered stem i = numbered stem j) :
    i = j := by
  have digits : (toString i).toList = (toString j).toList := by
    rw [(String.append_right_inj stem).mp h]
  calc
    i = Nat.ofDigitChars 10 (toString i).toList 0 := by simp
    _ = Nat.ofDigitChars 10 (toString j).toList 0 := by rw [digits]
    _ = j := by simp

theorem le_firstFree (stem : String) (used : List String) (n : Nat) :
    n ≤ firstFree stem used n := by
  fun_induction firstFree stem used n with
  | case1 used n hm ih => omega
  | case2 used n hm => exact Nat.le_refl n

theorem firstFree_not_mem (stem : String) (used : List String) (n : Nat) :
    numbered stem (firstFree stem used n) ∉ used := by
  fun_induction firstFree stem used n with
  | case1 used n hm ih =>
    intro hu
    refine ih ((List.mem_erase_of_ne fun he => ?_).mpr hu)
    have hn := numbered_injective stem he
    have hle := le_firstFree stem (used.erase (numbered stem n)) (n + 1)
    omega
  | case2 used n hm => exact hm

theorem mem_of_lt_firstFree (stem : String) (used : List String) (n : Nat) :
    ∀ k, n ≤ k → k < firstFree stem used n → numbered stem k ∈ used := by
  fun_induction firstFree stem used n with
  | case1 used n hm ih =>
    intro k hk hlt
    by_cases he : k = n
    · rw [he]
      exact hm
    · exact List.mem_of_mem_erase (ih k (by omega) hlt)
  | case2 used n hm =>
    intro k hk hlt
    omega

theorem firstFree_le {stem : String} {used used' : List String}
    (h : ∀ k, numbered stem k ∈ used → numbered stem k ∈ used') (n : Nat) :
    firstFree stem used n ≤ firstFree stem used' n := by
  refine Nat.le_of_not_lt fun hlt => firstFree_not_mem stem used' n (h _ ?_)
  exact mem_of_lt_firstFree stem used n _ (le_firstFree stem used' n) hlt

/-- The search depends on the numbered labels among those in use. -/
theorem firstFree_congr {stem : String} {used used' : List String}
    (h : ∀ k, numbered stem k ∈ used ↔ numbered stem k ∈ used') (n : Nat) :
    firstFree stem used n = firstFree stem used' n :=
  Nat.le_antisymm (firstFree_le (fun k => (h k).mp) n) (firstFree_le (fun k => (h k).mpr) n)

theorem firstFree_le_of_not_mem {stem : String} {used : List String} {n k : Nat} (hk : n ≤ k)
    (h : numbered stem k ∉ used) : firstFree stem used n ≤ k :=
  Nat.le_of_not_lt fun hlt => h (mem_of_lt_firstFree stem used n k hk hlt)

/-- A number whose label is in use is passed over. -/
theorem firstFree_succ {stem : String} {used : List String} {n : Nat}
    (h : numbered stem n ∈ used) : firstFree stem used (n + 1) = firstFree stem used n := by
  have hfree := firstFree_not_mem stem used n
  have hle := le_firstFree stem used n
  have hne : firstFree stem used n ≠ n := by
    intro he
    rw [he] at hfree
    exact hfree h
  refine Nat.le_antisymm (firstFree_le_of_not_mem (by omega) hfree) ?_
  have hnext := le_firstFree stem used (n + 1)
  exact firstFree_le_of_not_mem (by omega) (firstFree_not_mem stem used (n + 1))

/-- No more numbers are passed over than there are different labels in use. -/
theorem firstFree_le_add_length (stem : String) (used : List String) (n : Nat) :
    firstFree stem used n ≤ n + used.eraseDups.length := by
  have hlength (used : List String) : firstFree stem used n ≤ n + used.length := by
    fun_induction firstFree stem used n with
    | case1 used n hm ih =>
      rw [List.length_erase_of_mem hm] at ih
      have hpos := List.length_pos_of_mem hm
      omega
    | case2 used n hm => omega
  rw [firstFree_congr (fun k => List.mem_eraseDups.symm) n]
  exact hlength used.eraseDups

end FreshLabel

/-! ## Labels in use -/

theorem Frame.tableName?_isSome_iff {frame : Frame} {label : String} :
    (frame.tableName? label).isSome ↔ label ∈ frame.labels.map (·.1) := by
  simp only [tableName?, List.lookup_isSome_iff, beq_iff_eq, List.mem_map]
  constructor
  · rintro ⟨entry, hm, he⟩
    exact ⟨entry, hm, he.symm⟩
  · rintro ⟨entry, hm, he⟩
    exact ⟨entry, hm, he.symm⟩

theorem Scope.tableName?_isSome_iff {scope : Scope} {label : String} :
    (scope.tableName? label).isSome ↔ label ∈ scope.allLabels := by
  simp only [tableName?, List.findSome?_isSome_iff, Frame.tableName?_isSome_iff, allLabels,
    List.mem_flatMap]

/-! ## Giving labels -/

namespace Clause

variable (env : Environment) (table : Table) (s : State)

theorem bindTable_some (label : String) :
    (bindTable env (some label) table).runFrom s =
      if (s.scope.tableName? label).isSome then (.error (.duplicateLabel label), s)
      else (.ok table, { s with scope := s.scope.bind table label }) := by
  unfold bindTable labelFor
  rw [Eval.runFrom_bind, Eval.runFrom_reading]
  by_cases hl : (s.scope.tableName? label).isSome
  · rw [if_pos hl, if_pos hl]
  · rw [if_neg hl, if_neg hl]
    rfl

theorem bindTable_none :
    (bindTable env none table).runFrom s =
      let n := FreshLabel.firstFree env.settings.labelStem s.scope.allLabels s.labelCounter
      (.ok table, { s with
        scope := s.scope.bind table (FreshLabel.numbered env.settings.labelStem n)
        labelCounter := n + 1 }) := rfl

/-- The label of a table without one of its own is free. -/
theorem freshLabel_free :
    s.scope.tableName? (FreshLabel.numbered env.settings.labelStem
      (FreshLabel.firstFree env.settings.labelStem s.scope.allLabels s.labelCounter)) = none := by
  have hn := FreshLabel.firstFree_not_mem env.settings.labelStem s.scope.allLabels s.labelCounter
  rw [← Scope.tableName?_isSome_iff] at hn
  simpa using hn

/-- Binding a table gives it a label that no frame has, or else fails and leaves the state alone. -/
theorem bindTable_cases (label? : Option String) :
    (∃ e, (bindTable env label? table).runFrom s = (.error e, s)) ∨
      ∃ label n, s.scope.tableName? label = none ∧ (∀ own, label? = some own → label = own) ∧
        s.labelCounter ≤ n ∧
        (bindTable env label? table).runFrom s =
          (.ok table, { s with scope := s.scope.bind table label, labelCounter := n }) := by
  cases label? with
  | some own =>
    rw [bindTable_some]
    by_cases hl : (s.scope.tableName? own).isSome
    · left
      exact ⟨_, if_pos hl⟩
    · right
      refine ⟨own, s.labelCounter, by simpa using hl, fun _ ho => Option.some.inj ho,
        Nat.le_refl _, ?_⟩
      rw [if_neg hl]
  | none =>
    right
    have hle := FreshLabel.le_firstFree env.settings.labelStem s.scope.allLabels s.labelCounter
    exact ⟨_, _, freshLabel_free env s, nofun, Nat.le_succ_of_le hle, bindTable_none env table s⟩

end Clause

end TableQuery
