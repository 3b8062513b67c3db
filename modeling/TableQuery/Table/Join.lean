import TableQuery.Query.Operator
import TableQuery.Table.Filter

/-!
Joins of two tables: all pairs of rows, or those that meet a condition. Pairs come left row by left
row, in the order of the right rows. An outer join keeps a left row without partner and fills it up
with nulls.
-/

namespace TableQuery.Table

/-- The name of the table that a join makes. -/
def joinedName (left right : Table) (kind : JoinKind) : String :=
  left.name ++ "_" ++ right.name ++ "_" ++ kind.name ++ "_joined"

/-- The table of joined rows. -/
def joinedWith (left right : Table) (name : String) (rows : List Row) : Table :=
  ⟨name, left.fields ++ right.fields, rows⟩

/-- Every left row with every right row. -/
def crossJoin (left right : Table) (name : String) : Table :=
  left.joinedWith right name (left.rows.flatMap fun l => right.rows.map l.join)

section

variable {m : Type → Type} [Monad m]

/-- The pairs of some left rows. -/
def joinRows (outer : Bool) (right : Table) (condition : Row → m Bool) : List Row → m (List Row)
  | [] => return []
  | l :: rest => do
    let found ← keepM condition (right.rows.map l.join)
    let more ← joinRows outer right condition rest
    return (if outer && found.isEmpty then [l.join right.nullRow] else found) ++ more

/-- The pairs of rows that meet a condition. -/
def joinOn (left right : Table) (name : String) (outer : Bool) (condition : Row → m Bool) :
    m Table := do
  return left.joinedWith right name (← joinRows outer right condition left.rows)

end

end TableQuery.Table
