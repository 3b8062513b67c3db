import TableQuery.Evaluation.Select

/-! # The parts of a query under evaluation

The evaluator walks through lists and options with functions of its own, one for each. Here they
become maps, and a query becomes a pipeline that runs in a frame of its own. -/

namespace TableQuery

variable (env : Environment)

@[simp] theorem evaluateEach_eq (exprs : List Expr) :
    evaluateEach env exprs = exprs.map (evaluate env) := by
  induction exprs with
  | nil => rfl
  | cons expr rest ih => simp [evaluateEach, ih]

@[simp] theorem evaluateOption_eq (expr? : Option Expr) :
    evaluateOption env expr? = expr?.map (evaluate env) := by
  cases expr? <;> rfl

@[simp] theorem evaluateColumns_eq (columns : List SelectColumn) :
    evaluateColumns env columns = columns.map fun column => evaluate env column.expr := by
  induction columns with
  | nil => rfl
  | cons column rest ih => cases column; simp [evaluateColumns, evaluateColumn, ih]

@[simp] theorem evaluateSource_eq (source : Option TableRef) :
    evaluateSource env source = source.map (evaluateTableRef env false) := by
  cases source <;> rfl

@[simp] theorem evaluateJoins_eq (joins : List Join) :
    evaluateJoins env joins = joins.map (evaluateJoin env) := by
  induction joins with
  | nil => rfl
  | cons join rest ih => simp [evaluateJoins, ih]

/-- The meanings of the parts of a query. -/
def Select.parts (query : Select) : Pipeline :=
  { source := query.source.map (evaluateTableRef env false)
    joins := query.joins.map (evaluateJoin env)
    columns := query.columns.map fun column => evaluate env column.expr
    filter := query.filter.map (evaluate env)
    having := query.having.map (evaluate env)
    limit := query.limit.map (evaluate env)
    offset := query.offset.map (evaluate env) }

/-- What a query does in its own frame. -/
def Select.pipeline (query : Select) : Eval Table := (query.parts env).run env query

theorem evaluateSelect_eq (query : Select) :
    evaluateSelect env query = Eval.inChildScope (query.pipeline env) := by
  cases query
  simp [evaluateSelect, Select.pipeline, Select.parts]

section

variable {env} {query : Select}

theorem Select.pipeline_star (h : query.star = true) : query.pipeline env = throw .starSelect := by
  unfold pipeline Pipeline.run
  rw [if_pos h]

/-- Without a from item, a query has the select list for its only row. -/
theorem Select.pipeline_single (h : query.star = false) (hs : query.source = none) :
    query.pipeline env = Clause.single (Clause.outputNames query.columns)
      (query.columns.map fun column => evaluate env column.expr) := by
  unfold pipeline Pipeline.run parts
  rw [if_neg (by simp [h]), hs]
  rfl

/-- With a from item, the limit is the last of the clauses. -/
theorem Select.pipeline_from {ref : TableRef} (h : query.star = false)
    (hs : query.source = some ref) :
    query.pipeline env =
      if query.having.isSome && query.groupBy.isEmpty then
        throw (.malformedGroup (.havingAlone query.pos))
      else
        (query.parts env).skipped env query (evaluateTableRef env false ref) >>=
          Clause.limit (query.limit.map (evaluate env)) := by
  unfold pipeline Pipeline.run
  rw [if_neg (by simp [h])]
  simp only [parts, hs]
  rfl

end

/-- The rows that a table reference stands for, as `from` and `join` ask for them. -/
def TableRef.rows (joined : Bool) (ref : TableRef) : Eval Table :=
  match ref.source with
  | .table name => Clause.boundTable joined ref.pos name ref.label
  | .subquery query => Clause.derivedTable ref.pos ref.label (evaluateSelect env query)

theorem evaluateTableRef_eq (joined : Bool) (ref : TableRef) :
    evaluateTableRef env joined ref =
      (do Clause.bindTable env ref.label (← ref.rows env joined)) := by
  obtain ⟨pos, source | query, label⟩ := ref <;> rfl

theorem evaluateJoin_eq (join : Join) (left : Table) :
    evaluateJoin env join left =
      Clause.join join.pos join.kind (evaluateTableRef env true join.table)
        (join.condition.map (evaluate env)) left := by
  cases join
  simp [evaluateJoin]

end TableQuery
