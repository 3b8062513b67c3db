import TableQuery.Table.Join

/-! # Inner joins and cross joins

An inner join asks its condition about the pairs of a cross join, in their order, and keeps those
for which it holds. -/

namespace TableQuery

variable {m : Type → Type} [Monad m] [LawfulMonad m] {α : Type}

theorem keepM_append (condition : α → m Bool) (as bs : List α) :
    keepM condition (as ++ bs) = do
      let kept ← keepM condition as
      let more ← keepM condition bs
      return kept ++ more := by
  induction as with
  | nil => simp [keepM]
  | cons a rest ih =>
    simp only [List.cons_append, keepM, ih, bind_assoc, pure_bind]
    congr 1
    funext keep
    congr 1
    funext kept
    congr 1
    funext more
    split <;> rfl

namespace Table

theorem joinRows_inner (right : Table) (condition : Row → m Bool) (rows : List Row) :
    joinRows false right condition rows =
      keepM condition (rows.flatMap fun l => right.rows.map l.join) := by
  induction rows with
  | nil => rfl
  | cons row rest ih =>
    rw [List.flatMap_cons, keepM_append, joinRows, ih]
    simp only [Bool.false_and, Bool.false_eq_true, if_false]

theorem joinOn_inner (left right : Table) (name : String) (condition : Row → m Bool) :
    left.joinOn right name false condition = do
      return left.joinedWith right name
        (← keepM condition (left.crossJoin right name).rows) := by
  rw [joinOn, joinRows_inner]
  rfl

end Table

end TableQuery
