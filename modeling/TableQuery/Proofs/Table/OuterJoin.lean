import TableQuery.Proofs.Table.Join

/-! # Outer joins

Inner and outer joins ask their condition about the pairs of the cross join, in their order, and the
first answer that fails is what they fail with. Otherwise the outer join has the rows of the inner
one, and in its place each left row that is in none of them. -/

namespace TableQuery

section

variable {ε α : Type} (condition : α → Except ε Bool)

/-- The answer is yes. A condition that fails gives no answer. -/
def met (a : α) : Bool := (condition a).toOption.getD false

/-- All elements are asked about, and if no answer fails, those with a yes are kept. -/
theorem keepM_eq_filter (as : List α) :
    keepM condition as = do
      let _ ← as.mapM condition
      return as.filter (met condition) := by
  induction as with
  | nil => rfl
  | cons a rest ih =>
    rw [keepM, ih, List.mapM_cons]
    cases ha : condition a with
    | error e => rfl
    | ok answer =>
      have hmet : met condition a = answer := by
        rw [met, ha]
        rfl
      rw [List.filter_cons, hmet]
      cases rest.mapM condition <;> rfl

end

/-- A left row and its partner in an outer join, if it has one. -/
structure Pairing where
  left : Row
  partner : Option Row

namespace Pairing

/-- The row of the pair, if the left row has a partner. -/
def matched? (pairing : Pairing) : Option Row := pairing.partner.map pairing.left.join

/-- The row of the pair. Where a row of the right table is missing, there are all the columns of that
table all the same, and each has a null. -/
def row (right : Table) (pairing : Pairing) : Row :=
  pairing.left.join (pairing.partner.getD right.nullRow)

end Pairing

namespace Table

section

variable (right : Table) (holds : Row → Bool) (l : Row)

/-- The right rows that meet the condition with a left row. -/
def partners : List Row := right.rows.filter fun r => holds (l.join r)

/-- The pairs of a left row: with each of its partners, or with none where there is none. -/
def pairingsOf : List Pairing :=
  if (right.partners holds l).isEmpty then [⟨l, none⟩]
  else (right.partners holds l).map fun r => ⟨l, some r⟩

/-! ## The pairs of one left row -/

theorem map_partners :
    (right.partners holds l).map l.join = (right.rows.map l.join).filter holds :=
  List.filter_map.symm

theorem filterMap_pairingsOf :
    (right.pairingsOf holds l).filterMap (·.matched?) = (right.rows.map l.join).filter holds := by
  rw [← map_partners, pairingsOf]
  cases right.partners holds l with
  | nil => rfl
  | cons r rest =>
    rw [List.isEmpty_cons, if_neg Bool.false_ne_true, List.filterMap_map]
    exact congrFun List.filterMap_eq_map _

theorem map_pairingsOf :
    (right.pairingsOf holds l).map (·.row right) =
      let found := (right.rows.map l.join).filter holds
      if found.isEmpty then [l.join right.nullRow] else found := by
  rw [← map_partners, pairingsOf]
  cases right.partners holds l with
  | nil => rfl
  | cons r rest =>
    rw [List.isEmpty_cons, if_neg Bool.false_ne_true, List.map_map]
    rfl

theorem mem_left_pairingsOf : l ∈ (right.pairingsOf holds l).map (·.left) := by
  rw [pairingsOf]
  cases right.partners holds l with
  | nil => exact List.mem_singleton.mpr rfl
  | cons r rest => exact List.mem_cons_self

end

/-! ## The pairs of all left rows -/

/-- The pairs of left rows, left row by left row. -/
def pairings (right : Table) (holds : Row → Bool) (rows : List Row) : List Pairing :=
  rows.flatMap (right.pairingsOf holds)

section

variable (right : Table) (holds : Row → Bool)

theorem pairings_cons (l : Row) (rest : List Row) :
    right.pairings holds (l :: rest) = right.pairingsOf holds l ++ right.pairings holds rest :=
  List.flatMap_cons

/-- The left rows of the pairs are the given rows, each at least once. -/
theorem sublist_left_pairings (rows : List Row) :
    rows.Sublist ((right.pairings holds rows).map (·.left)) := by
  induction rows with
  | nil => exact .slnil
  | cons l rest ih =>
    rw [pairings_cons, List.map_append]
    exact (List.singleton_sublist.mpr (mem_left_pairingsOf right holds l)).append ih

theorem filterMap_pairings (rows : List Row) :
    (right.pairings holds rows).filterMap (·.matched?) =
      (rows.flatMap fun l => right.rows.map l.join).filter holds := by
  rw [pairings, List.filterMap_flatMap, List.filter_flatMap]
  exact congrArg (rows.flatMap ·) (funext (filterMap_pairingsOf right holds))

theorem length_pairs (rows : List Row) :
    (rows.flatMap fun l => right.rows.map l.join).length = rows.length * right.rows.length := by
  induction rows with
  | nil => exact (Nat.zero_mul _).symm
  | cons l rest ih =>
    rw [List.flatMap_cons, List.length_append, ih, List.length_map, List.length_cons,
      Nat.succ_mul, Nat.add_comm]

end

/-! ## Joins -/

theorem eq_null_of_mem_nullRow (right : Table) : ∀ v ∈ right.nullRow.values, v = .null := by
  intro v hv
  obtain ⟨_, _, rfl⟩ := List.mem_map.mp hv
  rfl

/-- An outer join asks about the pairs of the left rows with all right rows, and if no answer fails,
its rows are those of the left rows with their partners. -/
theorem joinRows_outer (right : Table) (condition : Row → Except QueryError Bool)
    (rows : List Row) :
    joinRows true right condition rows = do
      let _ ← (rows.flatMap fun l => right.rows.map l.join).mapM condition
      return (right.pairings (met condition) rows).map (·.row right) := by
  induction rows with
  | nil => rfl
  | cons l rest ih =>
    rw [joinRows, keepM_eq_filter, ih, pairings_cons, List.map_append, map_pairingsOf,
      List.flatMap_cons, List.mapM_append]
    -- On both sides the pairs of this row are asked about before those of the rows behind it.
    cases (right.rows.map l.join).mapM condition with
    | error e => rfl
    | ok answers =>
      cases (rest.flatMap fun l => right.rows.map l.join).mapM condition <;> rfl

/-- An inner join is a filtered cross join. An outer join asks the same questions and fails with the
same first error; if there is none, it has one row for each left row with each of its partners,
where a left row without partner is joined with the row that has the columns of the right table and
only nulls in them, and without these rows it is the inner join. -/
theorem joins_by_pairs (left right : Table) (name : String)
    (condition : Row → Except QueryError Bool) :
    let cross := left.crossJoin right name
    let pairs := right.pairings (met condition) left.rows
    let inner := left.joinedWith right name (pairs.filterMap (·.matched?))
    let outer := left.joinedWith right name (pairs.map (·.row right))
    (left.joinOn right name false condition = cross.filter condition ∧
      left.joinOn right name false condition = do
        let _ ← cross.rows.mapM condition
        return inner) ∧
    (left.joinOn right name true condition = do
      let _ ← cross.rows.mapM condition
      return outer) ∧
    (right.nullRow.columns = Column.ofFields right.name right.fields ∧
      right.nullRow.values.length = right.fields.length ∧ ∀ v ∈ right.nullRow.values, v = .null) ∧
    left.rows.Sublist (pairs.map (·.left)) ∧ left.rows.length ≤ outer.rows.length ∧
    cross.rows.length = left.rows.length * right.rows.length := by
  intro cross pairs inner outer
  have hinner : left.joinOn right name false condition = do
      let _ ← cross.rows.mapM condition
      return inner := by
    rw [joinOn_inner, keepM_eq_filter, bind_assoc]
    simp only [inner, pairs, filterMap_pairings, pure_bind]
    rfl
  have houter : left.joinOn right name true condition = do
      let _ ← cross.rows.mapM condition
      return outer := by
    rw [joinOn, joinRows_outer, bind_assoc]
    simp only [pure_bind]
    rfl
  have hleft := sublist_left_pairings right (met condition) left.rows
  refine ⟨⟨joinOn_inner left right name condition, hinner⟩, houter,
    ⟨rfl, List.length_map _, right.eq_null_of_mem_nullRow⟩, hleft, ?_, length_pairs right left.rows⟩
  calc left.rows.length
      ≤ (pairs.map (·.left)).length := hleft.length_le
    _ = outer.rows.length := by
      rw [List.length_map]
      exact (List.length_map _).symm

end Table

end TableQuery
