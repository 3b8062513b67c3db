import TableQuery.Query.Tree
import TableQuery.Scope

/-!
What a column reference means on a row. A qualifier is a label or a table name, looked up through
all frames; without one, exactly one table of the innermost frame has to have the field.
-/

namespace TableQuery.Scope

/-- The table a qualifier stands for. -/
def qualified (scope : Scope) (qualifier : String) : Except QueryError String :=
  match (scope.tableName? qualifier).or ((scope.table? qualifier).map (·.name)) with
  | some name => .ok name
  | none => .error (.tableNotFound qualifier)

/-- The only table of the innermost frame with the field of an unqualified reference. -/
def owner (scope : Scope) (ref : ColumnRef) : Except QueryError String :=
  match scope.innermost.allTables.filter (·.hasField ref.name) with
  | [] => .error (.columnNotFound ref.shown)
  | [table] => .ok table.name
  | _ :: _ :: _ => .error (.ambiguousColumn ref.shown)

/-- The table a reference means. -/
def tableOf (scope : Scope) (ref : ColumnRef) : Except QueryError String :=
  match ref.table with
  | some qualifier => scope.qualified qualifier
  | none => scope.owner ref

/-- The column a reference means on a row, and its value there. -/
def resolve (scope : Scope) (ref : ColumnRef) (row : Row) : Except QueryError (Column × Value) := do
  let table ← scope.tableOf ref
  match ← row.column ref.name table with
  | none => .error (.columnNotFound ref.shown)
  | some column =>
    match row.values[column.index]? with
    | some v => return (column, v)
    | none => .error (.row (.noValue ref.shown))

end TableQuery.Scope
