import Mathlib
import TableQuery.Proofs.Table.StableSort

/-! # Sorting and equality

Queries call two numbers equal if they have the same value, sorts only if they have the same bits.
The two notions part at the zeros: a sort puts the negative one first, so that rows with different
zeros in a key do not come to their next key. All other rows with equal keys are sorted by the next
one. -/

namespace TableQuery

/-! ## Two values -/

namespace Value

variable {a b : Value}

/-- The two zeros. -/
def OppositeZeros (a b : Value) : Prop :=
  ∃ m n : Number, a = number m ∧ b = number n ∧ m.isZero = true ∧ n.isZero = true ∧ m ≠ n

/-- Values that are equal for queries are the same, or they are the two zeros. -/
theorem eq_or_zeros (h : a.same b = true) : a = b ∨ a.OppositeZeros b := by
  cases a <;> cases b
  case null.null => exact .inl rfl
  case number.number m n =>
    by_cases hmn : m = n
    · exact .inl (congrArg number hmn)
    · have horder : m.compare? n = some .eq := beq_iff_eq.mp h
      obtain ⟨hm, hn⟩ := (Number.eq_or_zeros horder).resolve_left hmn
      exact .inr ⟨m, n, rfl, rfl, hm, hn, hmn⟩
  case text.text => exact .inl (congrArg text (beq_iff_eq.mp h))
  case boolean.boolean => exact .inl (congrArg boolean (beq_iff_eq.mp h))
  all_goals cases h

theorem sortCompare?_self (a : Value) : a.sortCompare? a = some .eq := by
  have htie := sortOrder_eq_eq.mpr (rfl : a = a)
  cases a
  case null => rfl
  all_goals exact congrArg some htie

/-- What is less for queries comes earlier in the sort order. -/
theorem sortCompare?_of_less (h : a.compare? b = .ok (some .lt)) :
    a.sortCompare? b = some .lt := by
  cases a <;> cases b
  case number.number => exact congrArg some (Number.totalCompare_of_less (Except.ok.inj h))
  case text.text => exact Except.ok.inj h
  all_goals cases h

/-- What is greater for queries comes later in the sort order. -/
theorem sortCompare?_of_greater (h : a.compare? b = .ok (some .gt)) :
    a.sortCompare? b = some .gt := by
  cases a <;> cases b
  case number.number m n =>
    have hless : n.compare? m = some .lt := by
      rw [m.compare?_swap, Except.ok.inj h]
      rfl
    have horder : n.totalCompare m = .lt := Number.totalCompare_of_less hless
    exact congrArg some (Std.OrientedOrd.eq_swap.trans (congrArg Ordering.swap horder))
  case text.text => exact Except.ok.inj h
  all_goals cases h

end Value

/-- What queries find in the wrong order, sorts do as well. -/
theorem Direction.apply_of_compare? {d : Direction} {a b : Value}
    (h : a.compare? b = .ok (some (d.apply .gt))) :
    d.apply ((a.sortCompare? b).getD .eq) = .gt := by
  cases d with
  | ascending =>
    rw [Value.sortCompare?_of_greater h]
    rfl
  | descending =>
    rw [Value.sortCompare?_of_less h]
    rfl

/-! ## Ties -/

/-- Where all keys before one are the same, this one decides. -/
theorem apply_ne_gt_of_ties {ds : List Direction} {as bs : List Value}
    (h : compareKeys ds as bs ≠ .gt) {i : Nat} {d : Direction} {a b : Value}
    (hd : ds[i]? = some d) (ha : as[i]? = some a) (hb : bs[i]? = some b)
    (hties : ∀ j < i, ∀ v w, as[j]? = some v → bs[j]? = some w → v = w) :
    d.apply ((a.sortCompare? b).getD .eq) ≠ .gt := by
  induction i generalizing ds as bs with
  | zero =>
    obtain ⟨ds, rfl⟩ := List.head?_eq_some_iff.mp (List.head?_eq_getElem?.trans hd)
    obtain ⟨as, rfl⟩ := List.head?_eq_some_iff.mp (List.head?_eq_getElem?.trans ha)
    obtain ⟨bs, rfl⟩ := List.head?_eq_some_iff.mp (List.head?_eq_getElem?.trans hb)
    intro hgt
    rw [compareKeys, hgt] at h
    exact h rfl
  | succ i ih =>
    cases ds <;> cases as <;> cases bs
    case cons.cons.cons e ds v as w bs =>
      obtain rfl : v = w := hties 0 (Nat.succ_pos i) v w rfl rfl
      have htie : e.apply ((v.sortCompare? v).getD .eq) = .eq := by
        rw [v.sortCompare?_self]
        cases e <;> rfl
      rw [compareKeys, htie] at h
      exact ih h hd ha hb fun j hj => hties (j + 1) (Nat.succ_lt_succ hj)
    all_goals first | cases hd | cases ha | cases hb

namespace Table

variable {table sorted : Table} {directions : List Direction}
  {key : Row → Except QueryError (List Value)}

/-- Of two rows that have equal keys before one, in the given sense of equal, the earlier row never
has the greater value in this key, nor the smaller one if it is a descending key. -/
def TiesSorted (sorted : Table) (directions : List Direction)
    (key : Row → Except QueryError (List Value)) (equal : Value → Value → Prop) : Prop :=
  sorted.rows.Pairwise fun r r' => ∀ ks ks', key r = .ok ks → key r' = .ok ks' →
    ∀ (i : Nat) (d : Direction) (a b : Value), directions[i]? = some d → ks[i]? = some a →
      ks'[i]? = some b →
      (∀ j < i, ∀ v w, ks[j]? = some v → ks'[j]? = some w → equal v w) →
      a.compare? b ≠ .ok (some (d.apply .gt))

/-- In a sorted table rows with equal keys are sorted by the next key, as queries compare values,
unless two of the keys are the two zeros. -/
theorem ties_sorted_by_next_key
    (hwidth : ∀ row ∈ table.rows, ∀ ks, key row = .ok ks → ks.length = directions.length)
    (h : table.sort directions key = .ok sorted) :
    sorted.TiesSorted directions key fun a b => a.same b = true ∧ ¬a.OppositeZeros b := by
  obtain ⟨entries, rfl, -, hkeys, hsorted⟩ := sort_ok hwidth h
  refine List.pairwise_map.mpr (hsorted.imp_of_mem fun {r r'} hr hr' hle ks ks' hks hks' => ?_)
  cases (hkeys r hr).symm.trans hks
  cases (hkeys r' hr').symm.trans hks'
  intro i d a b hd ha hb hties hwrong
  refine apply_ne_gt_of_ties hle hd ha hb (fun j hj v w hv hw => ?_) (d.apply_of_compare? hwrong)
  obtain ⟨hsame, hzeros⟩ := hties j hj v w hv hw
  exact (Value.eq_or_zeros hsame).resolve_right hzeros

/-- Behind the negative zero the rows with the positive one are sorted by their second key. -/
theorem zeros_sorted_apart :
    let row (x y : Number) : Row :=
      ⟨[("t", 0)], Column.ofFields "t" ["x", "y"], [.number x, .number y]⟩
    let key (row : Row) : Except QueryError (List Value) := .ok row.values
    let table : Table := ⟨"t", ["x", "y"],
      [row (.zero false) (.ofNat 3), row (.zero true) (.ofNat 2), row (.zero false) (.ofNat 1)]⟩
    let sorted : Table := ⟨"t", ["x", "y"],
      [row (.zero true) (.ofNat 2), row (.zero false) (.ofNat 1), row (.zero false) (.ofNat 3)]⟩
    (∀ row ∈ table.rows, ∀ ks, key row = .ok ks → ks.length = 2) ∧
      table.sort [.ascending, .ascending] key = .ok sorted ∧
      sorted.TiesSorted [.ascending, .ascending] key fun a b =>
        a.same b = true ∧ ¬a.OppositeZeros b := by
  intro row key table sorted
  have hwidth : ∀ row ∈ table.rows, ∀ ks, key row = .ok ks → ks.length = 2 := by
    intro row hrow ks hks
    cases hks
    fin_cases hrow <;> rfl
  have hsort : table.sort [.ascending, .ascending] key = .ok sorted := by cbv
  exact ⟨hwidth, hsort, ties_sorted_by_next_key hwidth hsort⟩

/-- The two zeros are equal, and yet a row with 2 comes before a row with 1. -/
theorem zeros_hide_next_key :
    ¬∀ (table sorted : Table) (directions : List Direction)
      (key : Row → Except QueryError (List Value)),
      (∀ row ∈ table.rows, ∀ ks, key row = .ok ks → ks.length = directions.length) →
      table.sort directions key = .ok sorted →
      sorted.TiesSorted directions key fun a b => a.same b = true := by
  intro h
  let row (x y : Number) : Row :=
    ⟨[("t", 0)], Column.ofFields "t" ["x", "y"], [.number x, .number y]⟩
  let table : Table := ⟨"t", ["x", "y"],
    [row (.zero false) (.ofNat 1), row (.zero true) (.ofNat 2)]⟩
  let sorted : Table := ⟨"t", ["x", "y"],
    [row (.zero true) (.ofNat 2), row (.zero false) (.ofNat 1)]⟩
  have hwidth : ∀ row ∈ table.rows, ∀ ks,
      (.ok row.values : Except QueryError (List Value)) = .ok ks → ks.length = 2 := by
    intro row hrow ks hks
    cases hks
    fin_cases hrow <;> rfl
  have hsort : table.sort [.ascending, .ascending] (fun row => .ok row.values) = .ok sorted := by
    cbv
  have hties := h table sorted _ _ hwidth hsort
  have hlater := List.rel_of_pairwise_cons hties List.mem_cons_self _ _ rfl rfl 1 _ _ _ rfl rfl rfl
  refine hlater (fun j hj v w hv hw => ?_) (by decide)
  obtain rfl : j = 0 := Nat.lt_one_iff.mp hj
  cases hv
  cases hw
  decide

end Table

end TableQuery
