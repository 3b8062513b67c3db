import TableQuery.Table.Row

/-!
Tables: a name, the fields that unqualified references can mean, and rows in order. Tables are both
what queries read and what they answer.
-/

namespace TableQuery

structure Table where
  name : String
  fields : List String
  rows : List Row
  deriving DecidableEq, Repr

namespace Table

/-- The table with a row for every list of values. -/
def ofValues (name : String) (fields : List String) (rows : List (List Value)) :
    Except QueryError Table := do
  return ⟨name, fields, ← rows.mapM (Row.ofValues name fields)⟩

/-- The table with the values that `values` gives for each row, first row first. -/
def project {m : Type → Type} [Monad m] [MonadExceptOf QueryError m] (name : String)
    (fields : List String) (rows : List Row) (values : Row → m (List Value)) : m Table := do
  let projected ← rows.mapM fun row => do
    match Row.ofValues name fields (← values row) with
    | .ok row => pure row
    | .error e => throw e
  return ⟨name, fields, projected⟩

def hasField (table : Table) (field : String) : Bool := table.fields.contains field

/-- Other rows under the same name and fields. -/
def withRows (table : Table) (rows : List Row) : Table := { table with rows }

/-- The table under another name, which every column then carries. -/
def renamed (table : Table) (name : String) : Table :=
  { table with name, rows := table.rows.map (·.retag name) }

/-- The table under a name, which it may have already. -/
def named (table : Table) (name : String) : Table :=
  if table.name = name then table else table.renamed name

/-- The row that stands for a missing row of the table. -/
def nullRow (table : Table) : Row := Row.nulls table.name table.fields

/-- The values of all rows. -/
def valueRows (table : Table) : List (List Value) := table.rows.map (·.values)

end Table

end TableQuery
