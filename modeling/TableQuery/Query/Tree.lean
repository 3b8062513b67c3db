import TableQuery.Query.Operator
import TableQuery.Token.Basic

/-!
Queries as trees. Every node keeps the position of the token it was built from, so that a failing
evaluation can point at the text; nothing else of the tokens is kept.
-/

namespace TableQuery

/-- A column, with or without the table it belongs to. Its position is that of the column name. -/
structure ColumnRef where
  pos : Position
  table : Option String
  name : String
  deriving DecidableEq, Repr

/-- The reference as it is written. -/
def ColumnRef.shown (ref : ColumnRef) : String :=
  match ref.table with
  | some table => table ++ "." ++ ref.name
  | none => ref.name

/-- A sort key; the first of several decides first. -/
structure OrderKey where
  column : ColumnRef
  direction : Direction
  deriving DecidableEq, Repr

mutual

inductive Expr where
  | literal (pos : Position) (value : Value)
  | column (ref : ColumnRef)
  | binary (pos : Position) (op : Operator) (left right : Expr)
  | logical (pos : Position) (op : Connective) (left right : Expr)
  | not (pos : Position) (operand : Expr)
  | negate (pos : Position) (operand : Expr)
  /-- Both bounds are included. -/
  | between (pos : Position) (value low high : Expr)
  /-- One of the items, which may hold a subquery for all values of its column. -/
  | member (pos : Position) (value : Expr) (items : List Expr)
  | like (pos : Position) (value pattern : Expr) (ignoreCase : Bool)
  | isNull (pos : Position) (operand : Expr)
  /-- The result beside the first condition that holds. -/
  | case (pos : Position) (whens thens : List Expr) (otherwise : Option Expr)
  /-- A call with arguments, or with a star in their place. -/
  | call (pos : Position) (callee : Expr) (args : List Expr) (star : Bool)
  /-- An expression in parentheses. -/
  | group (pos : Position) (inner : Expr)
  | existence (pos : Position) (query : Select)
  /-- A query in the place of a value. -/
  | subquery (query : Select)

/-- An expression of the select list and the name given to its column. -/
structure SelectColumn where
  expr : Expr
  label : Option String

/-- What rows are taken from. -/
inductive Source where
  | table (name : String)
  | subquery (query : Select)

structure TableRef where
  pos : Position
  source : Source
  label : Option String

structure Join where
  pos : Position
  kind : JoinKind
  table : TableRef
  condition : Option Expr

structure Select where
  pos : Position
  /-- A star stands in the place of the columns. -/
  star : Bool
  columns : List SelectColumn
  source : Option TableRef
  joins : List Join
  filter : Option Expr
  groupBy : List Expr
  having : Option Expr
  orderBy : List OrderKey
  limit : Option Expr
  offset : Option Expr

end

/-- The position messages give for an expression. -/
def Expr.pos : Expr → Position
  | literal pos _ | binary pos .. | logical pos .. | not pos _ | negate pos _ | between pos ..
  | member pos .. | like pos .. | isNull pos _ | case pos .. | call pos .. | group pos _
  | existence pos _ => pos
  | column ref => ref.pos
  | subquery query => query.pos

/-- The function a call names, where the callee is a name without a table. -/
def Expr.functionName? : Expr → Option String
  | call _ (column ⟨_, none, name⟩) _ _ => some name
  | _ => none

/-- The query as a log names it. -/
def Select.shown (query : Select) : String := "SELECT statement at " ++ query.pos.shown

end TableQuery
