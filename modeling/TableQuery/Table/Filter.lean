import TableQuery.Table.Basic

/-!
Operators that keep some of a table's rows, in order: those that meet a condition, those behind the
first few, and the first few. The condition may fail and may have effects; it is asked row by row
from the first, and its first failure ends the operation.
-/

namespace TableQuery

section

variable {m : Type → Type} [Monad m]

/-- The elements that meet a condition. -/
def keepM {α : Type} (condition : α → m Bool) : List α → m (List α)
  | [] => return []
  | a :: rest => do
    let keep ← condition a
    let kept ← keepM condition rest
    return if keep then a :: kept else kept

namespace Table

/-- The table of the rows that meet a condition. -/
def filter (table : Table) (condition : Row → m Bool) : m Table := do
  return table.withRows (← keepM condition table.rows)

end Table

end

namespace Table

/-- The table without its first rows. -/
def skip (table : Table) (n : Nat) : Table := table.withRows (table.rows.drop n)

/-- The table of its first rows. -/
def take (table : Table) (n : Nat) : Table := table.withRows (table.rows.take n)

end Table

end TableQuery
