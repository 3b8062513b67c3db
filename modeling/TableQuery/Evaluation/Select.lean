import TableQuery.Evaluation.Clause

/-!
The meaning of expressions and queries, by recursion on their trees. An expression is evaluated in a
context; a query is evaluated in a frame of its own, clause by clause:

  from, joins, where, group by with having or the select list, order by, offset, limit.
-/

namespace TableQuery

/-! ## Parts of expressions -/

/-- The function that a callee names. -/
def Expr.calleeName? : Expr → Option String
  | .column ⟨_, none, name⟩ => some name
  | _ => none

/-- Refuses a query with another number of columns than one. -/
def Table.checkSingleColumn (table : Table) : Except QueryError Unit :=
  if table.fields.length = 1 then .ok ()
  else .error (.type (.subqueryColumns table.fields.length))

namespace Meaning

/-- A connective: the right operand is evaluated only where the left one does not decide. -/
def connective (op : Connective) (left right : Meaning) : Meaning := fun context => do
  let a ← Eval.ofExcept (← left context).truth?
  match Value.decided? op a with
  | some answer => return .boolean answer
  | none =>
    let b ← Eval.ofExcept (← right context).truth?
    return Value.connect op a b

/-- The result beside the first condition that holds, or else the last one, null where there is
none. -/
def firstHolding (otherwise : Option Meaning) : List Meaning → List Meaning → Meaning
  | condition :: conditions, result :: results => fun context => do
    if ← Clause.condition condition context then result context
    else firstHolding otherwise conditions results context
  | _, _ => fun context =>
    match otherwise with
    | some result => result context
    | none => return .null

/-- The value of a query in the place of one: that of its only row and column, or null without a
row. -/
def scalar (query : Eval Table) : Eval Value := do
  let table ← query
  Eval.ofExcept table.checkSingleColumn
  match table.rows with
  | [] => return .null
  | [row] => return row.values.head?.getD .null
  | rows => throw (.scalarSubquery rows.length)

/-- All values of the only column of a query. -/
def column (query : Eval Table) : Eval (List Value) := do
  let table ← query
  Eval.ofExcept table.checkSingleColumn
  return table.rows.filterMap (·.values.head?)

/-- An aggregate applied to the group in context. Its argument is evaluated on every row of the
group, in the frame that the group was taken from. -/
def aggregate (env : Environment) (name : String) (args : List Meaning) (star : Bool) : Meaning :=
  fun context => do
    match context.group with
    | none => throw (.aggregateOutsideGroup name)
    | some rows =>
      let function ← Eval.ofExcept (env.functions.checkAggregate name args.length star)
      match if star then none else args.head? with
      | none => Eval.ofExcept (function.apply (.rows rows.length))
      | some arg =>
        let values ← Eval.inGroupSource (rows.mapM fun row => arg (.ofRow row))
        Eval.ofExcept (function.apply (.values values))

/-- A call of a named function. -/
def call (env : Environment) (pos : Position) (name : Option String) (args : List Meaning)
    (star : Bool) : Meaning := fun context => do
  match name with
  | none => throw (.execution (.unnamedCall pos))
  | some name =>
    if env.functions.isAggregate name then aggregate env name args star context
    else
      let values ← args.mapM fun arg => arg context
      Eval.ofExcept (env.functions.callScalar name values)

end Meaning

/-! ## Queries -/

/-- A query whose parts have been given their meanings. -/
structure Pipeline where
  source : Option (Eval Table)
  joins : List (Table → Eval Table)
  columns : List Meaning
  filter : Option Meaning
  having : Option Meaning
  limit : Option Meaning
  offset : Option Meaning

namespace Pipeline

/-- What some joins make of the source. -/
def joined (source : Eval Table) (joins : List (Table → Eval Table)) : Eval Table := do
  joins.foldlM (fun left join => join left) (← source)

variable (env : Environment) (query : Select) (parts : Pipeline) (source : Eval Table)

/-- The rows that the select list is evaluated on. -/
def filtered : Eval Table := do
  Clause.filter parts.filter (← joined source parts.joins)

/-- The results in the order of the rows or groups that they come from. -/
def selected : Eval Table := do
  let table ← parts.filtered source
  if query.groupBy.isEmpty then
    Clause.project (Clause.outputNames query.columns) parts.columns table
  else Clause.group env query.groupBy query.columns parts.columns parts.having table

/-- The results in the order asked for. -/
def ordered : Eval Table := do
  let table ← parts.selected env query source
  if query.orderBy.isEmpty then return table else Clause.order query.orderBy table

/-- The results without those before the offset. -/
def skipped : Eval Table := do
  Clause.offset parts.offset (← parts.ordered env query source)

/-- Takes a query through its clauses. -/
def run : Eval Table :=
  if query.star then throw .starSelect
  else
    match parts.source with
    | none => Clause.single (Clause.outputNames query.columns) parts.columns
    | some source =>
      if query.having.isSome && query.groupBy.isEmpty then
        throw (.malformedGroup (.havingAlone query.pos))
      else do Clause.limit parts.limit (← parts.skipped env query source)

end Pipeline

variable (env : Environment)

mutual

/-- The value of an expression in a context. -/
def evaluate : Expr → Meaning
  | .literal _ v => fun _ => return v
  | .column ref => fun context =>
    match context.row with
    | none => throw (.noRow ref.shown)
    | some row => Eval.reading fun scope => (·.2) <$> scope.resolve ref row
  | .binary _ op left right => fun context => do
    let a ← evaluate left context
    let b ← evaluate right context
    Eval.ofExcept (Value.binary op a b)
  | .logical _ op left right => Meaning.connective op (evaluate left) (evaluate right)
  | .not _ operand => fun context => do Eval.ofExcept (← evaluate operand context).not
  | .negate _ operand => fun context => do Eval.ofExcept (← evaluate operand context).negate
  | .between _ value low high => fun context => do
    let v ← evaluate value context
    let a ← evaluate low context
    let b ← evaluate high context
    Eval.ofExcept (v.between a b)
  | .member _ value items => fun context => do
    let v ← evaluate value context
    let candidates ← evaluateItems items context
    return .boolean (candidates.any v.same)
  | .like _ value pattern ignoreCase => fun context => do
    let v ← evaluate value context
    let p ← evaluate pattern context
    Eval.ofExcept (Value.like ignoreCase v p)
  | .isNull _ operand => fun context => do return .boolean (← evaluate operand context).isNull
  | .case pos whens thens otherwise => fun context => do
    if whens.length ≠ thens.length then
      throw (.execution (.caseBranches pos whens.length thens.length))
    else
      Meaning.firstHolding (evaluateOption otherwise) (evaluateEach whens) (evaluateEach thens)
        context
  | .call pos callee args star =>
    Meaning.call env pos callee.calleeName? (evaluateEach args) star
  | .group _ inner => evaluate inner
  | .existence _ query => fun _ => do return .boolean !(← evaluateSelect query).rows.isEmpty
  | .subquery query => fun _ => Meaning.scalar (evaluateSelect query)

/-- The meanings of expressions. -/
def evaluateEach : List Expr → List Meaning
  | [] => []
  | expr :: rest => evaluate expr :: evaluateEach rest

/-- The meaning of an expression that need not be there. -/
def evaluateOption : Option Expr → Option Meaning
  | none => none
  | some expr => some (evaluate expr)

/-- The values in a list behind `in`; a query stands for all values of its column. -/
def evaluateItems : List Expr → Context → Eval (List Value)
  | [], _ => return []
  | .subquery query :: rest, context => do
    let values ← Meaning.column (evaluateSelect query)
    return values ++ (← evaluateItems rest context)
  | item :: rest, context => do
    let v ← evaluate item context
    return v :: (← evaluateItems rest context)

/-- The meanings of a select list. -/
def evaluateColumns : List SelectColumn → List Meaning
  | [] => []
  | column :: rest => evaluateColumn column :: evaluateColumns rest

def evaluateColumn : SelectColumn → Meaning
  | ⟨expr, _⟩ => evaluate expr

/-- The table that a reference stands for, bound in the innermost frame. -/
def evaluateTableRef (joined : Bool) : TableRef → Eval Table
  | ⟨pos, .table name, label⟩ => do
    Clause.bindTable env label (← Clause.boundTable joined pos name label)
  | ⟨pos, .subquery query, label⟩ => do
    Clause.bindTable env label (← Clause.derivedTable pos label (evaluateSelect query))

/-- The table that a query reads from, where it reads from one. -/
def evaluateSource : Option TableRef → Option (Eval Table)
  | none => none
  | some ref => some (evaluateTableRef false ref)

/-- What a join makes of the table on its left. -/
def evaluateJoin : Join → Table → Eval Table
  | ⟨pos, kind, ref, on⟩ =>
    Clause.join pos kind (evaluateTableRef true ref) (evaluateOption on)

def evaluateJoins : List Join → List (Table → Eval Table)
  | [] => []
  | join :: rest => evaluateJoin join :: evaluateJoins rest

/-- The table that a query evaluates to, in a frame of its own. -/
def evaluateSelect : Select → Eval Table
  | query@⟨_, _, columns, source, joins, filter, _, having, _, limit, offset⟩ =>
    Eval.inChildScope <| Pipeline.run env query
      { source := evaluateSource source
        joins := evaluateJoins joins
        columns := evaluateColumns columns
        filter := evaluateOption filter
        having := evaluateOption having
        limit := evaluateOption limit
        offset := evaluateOption offset }

end

end TableQuery
