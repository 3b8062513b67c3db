import TableQuery.QueryError

/-!
Rows: values in order, with one column for each that says what it is called and which table it comes
from. A row that joins several tables keeps the columns of each under that table's name, together
with the place where they begin.

Columns are found by table and name. The visible name of a column counts first, its own name second,
and a name that several columns of the table have is ambiguous.
-/

namespace TableQuery

/-- Describes one value of a row. -/
structure Column where
  /-- The table the column belongs to. -/
  table : String
  /-- The visible name. -/
  label : String
  /-- The name in the table it was taken from. -/
  name : String
  /-- The place of its value in the row. -/
  index : Nat
  deriving DecidableEq, Repr

namespace Column

def atIndex (column : Column) (index : Nat) : Column := { column with index }

def ofTable (table : String) (column : Column) : Column := { column with table }

/-- The columns of a table with these fields. -/
def ofFields (table : String) (fields : List String) : List Column :=
  fields.mapIdx fun index field => ⟨table, field, field, index⟩

end Column

structure Row where
  /-- The tables of the row, each with the index of its first column. -/
  offsets : List (String × Nat)
  columns : List Column
  values : List Value
  deriving DecidableEq, Repr

namespace Row

/-! ## Making rows -/

/-- A row of one table, with a value for every column. -/
def ofColumns (table : String) (columns : List Column) (values : List Value) :
    Except QueryError Row :=
  if columns.length = values.length then .ok ⟨[(table, 0)], columns, values⟩
  else .error (.row (.lengths table columns.length values.length))

/-- A row of a table with these fields. -/
def ofValues (table : String) (fields : List String) (values : List Value) :
    Except QueryError Row :=
  ofColumns table (Column.ofFields table fields) values

/-- The row that has no value in any field. -/
def nulls (table : String) (fields : List String) : Row :=
  ⟨[(table, 0)], Column.ofFields table fields, fields.map fun _ => .null⟩

/-- The columns and values of both rows. Those of the right one move behind those of the left one; a
table that both rows name keeps its place on the left. -/
def join (left right : Row) : Row :=
  let shift := left.columns.length
  let added := right.offsets.filter fun (table, _) => (left.offsets.lookup table).isNone
  { offsets := left.offsets ++ added.map fun (table, index) => (table, shift + index)
    columns := left.columns ++ right.columns.map fun c => c.atIndex (shift + c.index)
    values := left.values ++ right.values }

/-- The same row as a row of one table. -/
def retag (row : Row) (table : String) : Row :=
  { row with offsets := [(table, 0)], columns := row.columns.map (·.ofTable table) }

/-! ## Finding columns -/

/-- The only column of a table with a property; `name` is what messages call it. -/
def findColumn (row : Row) (name table : String) (property : Column → Bool) :
    Except QueryError (Option Column) :=
  match row.columns.filter fun c => c.table == table && property c with
  | [] => .ok none
  | [column] => .ok (some column)
  | _ :: _ :: _ => .error (.ambiguousColumn (table ++ "." ++ name))

/-- The column of a table with this visible name. -/
def columnByLabel (row : Row) (label table : String) : Except QueryError (Option Column) :=
  row.findColumn label table (·.label == label)

/-- The column of a table with this own name. -/
def columnByName (row : Row) (name table : String) : Except QueryError (Option Column) :=
  row.findColumn name table (·.name == name)

/-- The column of a table with this name, visible or own. -/
def column (row : Row) (name table : String) : Except QueryError (Option Column) := do
  match ← row.columnByLabel name table with
  | some column => return some column
  | none => row.columnByName name table

/-- The value of the column of a table with this name. -/
def get (row : Row) (name table : String) : Except QueryError (Option Value) := do
  return (← row.column name table).bind fun column => row.values[column.index]?

/-- The value of the first column with this name, of whatever table. -/
def visible? (row : Row) (name : String) : Option Value :=
  let column := (row.columns.find? (·.label == name)).or (row.columns.find? (·.name == name))
  column.bind fun column => row.values[column.index]?

/-- The index of the first column of a table. -/
def offset? (row : Row) (table : String) : Option Nat := row.offsets.lookup table

/-! ## Showing rows -/

/-- The visible names with their values, in column order. -/
def entries (row : Row) : List (String × Value) :=
  row.columns.filterMap fun c => (row.values[c.index]?).map fun v => (c.label, v)

def shown (row : Row) : String :=
  let part (c : Column) (v : Value) : String := c.table ++ "." ++ c.label ++ " = " ++ v.shown
  "Row(" ++ "; ".intercalate (List.zipWith part row.columns row.values) ++ ")"

end Row

end TableQuery
