import TableQuery.Evaluation.Resolve
import TableQuery.Evaluation.State
import TableQuery.Table.Filter
import TableQuery.Table.Group
import TableQuery.Table.Join
import TableQuery.Table.Sort

/-!
What each clause of a query does to the table that reaches it. The expressions in a clause come as
meanings, that is, as evaluations that wait for a row; nothing here looks into them.
-/

namespace TableQuery

/-- What an expression evaluates to in a context. -/
abbrev Meaning := Context → Eval Value

namespace Clause

/-- Whether a condition holds. -/
def condition (meaning : Meaning) (context : Context) : Eval Bool := do
  Eval.ofExcept (← meaning context).holds

/-! ## From and joins -/

/-- The label that a table reference gets: its own, which must not be in use, or a new one. -/
def labelFor (env : Environment) : Option String → Eval String
  | some label => Eval.reading fun scope =>
    if (scope.tableName? label).isSome then .error (.duplicateLabel label) else .ok label
  | none => Eval.freshLabel env.settings

/-- Binds a table in the innermost frame and gives it its label. -/
def bindTable (env : Environment) (label : Option String) (table : Table) : Eval Table := do
  let label ← labelFor env label
  Eval.onScope fun scope => (scope.setTable table.name table).setLabel label table.name
  return table

/-- The table bound under a name. A joined table takes its label for a name. -/
def boundTable (joined : Bool) (pos : Position) (name : String) (label : Option String) :
    Eval Table :=
  Eval.reading fun scope =>
    match scope.find? name with
    | none => .error (.tableNotFound name)
    | some table =>
      if joined then
        match label with
        | some label => .ok (table.renamed label)
        | none => .error (.missingLabel (.joinedTable name pos))
      else .ok table

/-- The table that a subquery evaluates to, under its label. -/
def derivedTable (pos : Position) (label : Option String) (query : Eval Table) : Eval Table :=
  match label with
  | none => throw (.missingLabel (.subquery pos))
  | some label => do
    Eval.reading fun scope =>
      if (scope.innermost.table? label).isSome then .error (.duplicateLabel label) else .ok ()
    return (← query).renamed label

/-- Joins the table on the left with the one on the right. -/
def join (pos : Position) (kind : JoinKind) (right : Eval Table) (on : Option Meaning)
    (left : Table) : Eval Table := do
  if kind = .right ∨ kind = .full then throw (.joinKind kind pos)
  else
    let right ← right
    let name := left.joinedName right kind
    if kind = .cross then return left.crossJoin right name
    else
      match on with
      | none => throw (.joinCondition kind)
      | some on =>
        left.joinOn right name (kind == .left) fun row => condition on (.ofRow row)

/-! ## Where -/

/-- Keeps the rows for which the condition holds, all without one. -/
def filter (meaning : Option Meaning) (table : Table) : Eval Table :=
  match meaning with
  | none => return table
  | some meaning => table.filter fun row => condition meaning (.ofRow row)

/-! ## Select list -/

/-- The name of a result column: its label, the name of a column, or else its place. -/
def outputName (index : Nat) (column : SelectColumn) : String :=
  match column.label, column.expr with
  | some label, _ => label
  | none, .column ref => ref.name
  | none, _ => toString index

def outputNames (columns : List SelectColumn) : List String := columns.mapIdx outputName

/-- The values of the select list in a context. -/
def rowValues (meanings : List Meaning) (context : Context) : Eval (List Value) :=
  meanings.mapM fun meaning => meaning context

/-- The one row of a query that reads from no table. -/
def single (fields : List String) (meanings : List Meaning) : Eval Table := do
  let row ← Eval.ofExcept (Row.ofValues "result" fields (← rowValues meanings .none))
  return ⟨"result", fields, [row]⟩

/-- The select list evaluated on every row. Later clauses find names in its result. -/
def project (fields : List String) (meanings : List Meaning) (table : Table) : Eval Table := do
  let projected ← Table.project table.name fields table.rows fun row =>
    rowValues meanings (.ofRow row)
  Eval.onScope fun scope => scope.rebind projected
  return projected

/-! ## Group by and having -/

/-- Grouping keys have to be columns. -/
def groupColumns (keys : List Expr) : Except QueryError (List ColumnRef) :=
  keys.mapM fun key =>
    match key with
    | .column ref => .ok ref
    | key => .error (.malformedGroup (.keyNotColumn key.pos))

/-- A grouped query selects columns and calls of aggregates. -/
def groupable (functions : Registry) (expr : Expr) : Bool :=
  match expr with
  | .column _ => true
  | expr => expr.functionName?.any functions.isAggregate

/-- Refuses a select list with anything else in it. -/
def checkGroupable (functions : Registry) (columns : List SelectColumn) : Except QueryError Unit :=
  match columns.find? fun column => !groupable functions column.expr with
  | none => .ok ()
  | some column => .error (.malformedGroup (.neitherKeyNorAggregate column.expr.pos))

/-- A column that is found on no key row is not grouped. -/
def ungrouped : QueryError → QueryError
  | .columnNotFound column => .malformedGroup (.ungrouped column)
  | e => e

/-- The groups of a table's rows, which the select list has to fit. -/
def groups (functions : Registry) (keys : List Expr) (columns : List SelectColumn)
    (table : Table) : Eval (List Group) :=
  Eval.reading fun scope => do
    let refs ← groupColumns keys
    checkGroupable functions columns
    groupRows table.name (fun row => refs.mapM fun ref => scope.resolve ref row) table.rows

/-- The select list evaluated on a group. -/
def groupRow (name : String) (fields : List String) (meanings : List Meaning) (group : Group) :
    Eval Row := do
  let values ← meanings.mapM fun meaning =>
    (meaning (.ofGroup group.keyRow group.rows)).mapError ungrouped
  Eval.ofExcept (Row.ofValues name fields values)

/-- The table with one row for every group. -/
def groupTable (name : String) (fields : List String) (meanings : List Meaning)
    (groups : List Group) : Eval Table := do
  return ⟨name, fields, ← groups.mapM (groupRow name fields meanings)⟩

/-- Keeps the rows of the groups for which the condition holds, all without one. Later clauses find
names in the result. -/
def having (meaning : Option Meaning) (groups : List Group) (table : Table) : Eval Table :=
  match meaning with
  | none => do
    Eval.onScope fun scope => scope.rebind table
    return table
  | some meaning => do
    let kept ← Eval.overProjection table <|
      keepM (fun (row, group) => condition meaning (.ofGroup row group.rows))
        (table.rows.zip groups)
    let filtered := table.withRows (kept.map (·.1))
    Eval.onScope fun scope => scope.rebind filtered
    return filtered

/-- The name of the table that a table's groups make. -/
def groupedName (table : Table) : String := table.name ++ "_groupby"

/-- One row for every group of rows. -/
def group (env : Environment) (keys : List Expr) (columns : List SelectColumn)
    (meanings : List Meaning) (condition : Option Meaning) (table : Table) : Eval Table := do
  let groups ← Clause.groups env.functions keys columns table
  let projected ← groupTable (groupedName table) (outputNames columns) meanings groups
  having condition groups projected

/-! ## Order by -/

/-- Sorts by columns of the result. -/
def order (keys : List OrderKey) (table : Table) : Eval Table :=
  if keys.isEmpty then throw (.execution .noSortKey)
  else
    Eval.reading fun scope =>
      table.sort (keys.map (·.direction)) fun row =>
        keys.mapM fun key => (·.2) <$> scope.resolve key.column row

/-! ## Limit and offset -/

/-- The number of rows that an expression asks for. It is evaluated without a row. -/
def rowCount (clause : SliceClause) (meaning : Meaning) : Eval Nat := do
  let v ← (meaning .none).mapError (.slice clause)
  match v.number?.bind Number.toNat? with
  | some n => return n
  | none => throw (.slice clause (.type (.rowCount v)))

def offset (meaning : Option Meaning) (table : Table) : Eval Table :=
  match meaning with
  | none => return table
  | some meaning => do return table.skip (← rowCount .offset meaning)

def limit (meaning : Option Meaning) (table : Table) : Eval Table :=
  match meaning with
  | none => return table
  | some meaning => do return table.take (← rowCount .limit meaning)

end Clause

end TableQuery
