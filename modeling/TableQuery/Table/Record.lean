import TableQuery.Table.Basic

/-!
Typed records as rows. A record type says which fields it has, which values stand in them, and how a
record is made of a row again; fields are found by visible name, whatever the table.
-/

namespace TableQuery

namespace Row

/-- The value of a field. -/
def field (row : Row) (name : String) : Except QueryError Value :=
  match row.visible? name with
  | some v => .ok v
  | none => .error (.columnNotFound name)

/-- The number in a field, none for null. -/
def numberField (row : Row) (name : String) : Except QueryError (Option Number) := do
  match ← row.field name with
  | .null => return none
  | .number n => return some n
  | v => .error (.conversion (.notNumber name v.kind))

/-- The text in a field, none for null. -/
def textField (row : Row) (name : String) : Except QueryError (Option String) := do
  match ← row.field name with
  | .null => return none
  | .text s => return some s
  | v => .error (.conversion (.notText name v.kind))

end Row

/-- How records of a type stand in a table. -/
structure RecordFormat (α : Type) where
  fields : List String
  values : α → List Value
  ofRow : Row → Except QueryError α

namespace Table

/-- The table with a row for every record. -/
def ofRecords {α : Type} (format : RecordFormat α) (name : String) (records : List α) :
    Except QueryError Table :=
  ofValues name format.fields (records.map format.values)

/-- The records of all rows. -/
def toRecords {α : Type} (format : RecordFormat α) (table : Table) : Except QueryError (List α) :=
  table.rows.mapM format.ofRow

end Table

end TableQuery
