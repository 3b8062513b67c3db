import TableQuery.Evaluation.Clause

/-! # Replacements in queries

Columns and nested queries of a query can be replaced by others. The names of the result columns
stay, and so does what a grouped query may select. -/

namespace TableQuery

/-- Columns and queries to put in the places of others. Result columns are called by names, and
failures point at positions, so both stay. -/
structure Replacement where
  column : ColumnRef → ColumnRef
  query : Select → Select
  name_column : ∀ ref, (column ref).name = ref.name
  pos_query : ∀ inner, (query inner).pos = inner.pos

variable (ρ : Replacement)

mutual

/-- The callee of a call is a function and is not replaced. -/
def Expr.replace : Expr → Expr
  | .literal pos v => .literal pos v
  | .column ref => .column (ρ.column ref)
  | .binary pos op left right => .binary pos op left.replace right.replace
  | .logical pos op left right => .logical pos op left.replace right.replace
  | .not pos operand => .not pos operand.replace
  | .negate pos operand => .negate pos operand.replace
  | .between pos value low high => .between pos value.replace low.replace high.replace
  | .member pos value items => .member pos value.replace (replaceEach items)
  | .like pos value pattern ignoreCase => .like pos value.replace pattern.replace ignoreCase
  | .isNull pos operand => .isNull pos operand.replace
  | .case pos whens thens otherwise =>
    .case pos (replaceEach whens) (replaceEach thens) (replaceOption otherwise)
  | .call pos callee args star => .call pos callee (replaceEach args) star
  | .group pos inner => .group pos inner.replace
  | .existence pos query => .existence pos (ρ.query query)
  | .subquery query => .subquery (ρ.query query)

def replaceEach : List Expr → List Expr
  | [] => []
  | expr :: rest => expr.replace :: replaceEach rest

def replaceOption : Option Expr → Option Expr
  | none => none
  | some expr => some expr.replace

end

@[simp] theorem replaceEach_eq (exprs : List Expr) :
    replaceEach ρ exprs = exprs.map (Expr.replace ρ) := by
  induction exprs with
  | nil => rfl
  | cons expr rest ih => simp [replaceEach, ih]

@[simp] theorem replaceOption_eq (expr? : Option Expr) :
    replaceOption ρ expr? = expr?.map (Expr.replace ρ) := by
  cases expr? <;> rfl

def SelectColumn.replace (column : SelectColumn) : SelectColumn :=
  ⟨column.expr.replace ρ, column.label⟩

def TableRef.replace (ref : TableRef) : TableRef :=
  match ref.source with
  | .table _ => ref
  | .subquery inner => ⟨ref.pos, .subquery (ρ.query inner), ref.label⟩

def Join.replace (join : Join) : Join :=
  ⟨join.pos, join.kind, join.table.replace ρ, join.condition.map (Expr.replace ρ)⟩

def OrderKey.replace (key : OrderKey) : OrderKey := ⟨ρ.column key.column, key.direction⟩

/-- The query with all its columns replaced, and the queries that are nested in it directly. -/
def Select.replace (query : Select) : Select :=
  { pos := query.pos
    star := query.star
    columns := query.columns.map (SelectColumn.replace ρ)
    source := query.source.map (TableRef.replace ρ)
    joins := query.joins.map (Join.replace ρ)
    filter := query.filter.map (Expr.replace ρ)
    groupBy := query.groupBy.map (Expr.replace ρ)
    having := query.having.map (Expr.replace ρ)
    orderBy := query.orderBy.map (OrderKey.replace ρ)
    limit := query.limit.map (Expr.replace ρ)
    offset := query.offset.map (Expr.replace ρ) }

/-! ## What stays -/

theorem Expr.pos_replace (expr : Expr) (h : ∀ ref, expr ≠ .column ref) :
    (expr.replace ρ).pos = expr.pos := by
  cases expr with
  | column ref => exact absurd rfl (h ref)
  | subquery query => exact ρ.pos_query query
  | _ => rfl

theorem Clause.groupable_replace (functions : Registry) (expr : Expr) :
    groupable functions (expr.replace ρ) = groupable functions expr := by
  cases expr with
  | call pos callee args star =>
    cases callee with
    | column ref => obtain ⟨_, table, _⟩ := ref; cases table <;> rfl
    | _ => rfl
  | _ => rfl

theorem Clause.checkGroupable_replace (functions : Registry) (columns : List SelectColumn) :
    checkGroupable functions (columns.map (SelectColumn.replace ρ)) =
      checkGroupable functions columns := by
  have hfind : (columns.map (SelectColumn.replace ρ)).find?
        (fun column => !groupable functions column.expr) =
      (columns.find? fun column => !groupable functions column.expr).map
        (SelectColumn.replace ρ) := by
    rw [List.find?_map]
    congr 2
    exact funext fun column => congrArg (!·) (groupable_replace ρ functions column.expr)
  unfold checkGroupable
  rw [hfind]
  cases hc : columns.find? fun column => !groupable functions column.expr with
  | none => rfl
  | some column =>
    have hpos : (column.expr.replace ρ).pos = column.expr.pos := by
      refine Expr.pos_replace ρ _ fun ref he => ?_
      have hg := List.find?_some hc
      rw [he] at hg
      cases hg
    simp only [Option.map_some, SelectColumn.replace, hpos]

theorem Clause.outputName_replace (i : Nat) (column : SelectColumn) :
    outputName i (column.replace ρ) = outputName i column := by
  obtain ⟨expr, label⟩ := column
  cases label with
  | some label => rfl
  | none =>
    cases expr with
    | column ref => exact ρ.name_column ref
    | _ => rfl

theorem Clause.outputNames_replace (columns : List SelectColumn) :
    outputNames (columns.map (SelectColumn.replace ρ)) = outputNames columns := by
  refine List.ext_getElem (by simp [outputNames]) fun i _ _ => ?_
  simp [outputNames, outputName_replace]

theorem Clause.groupColumns_replace (keys : List Expr) :
    groupColumns (keys.map (Expr.replace ρ)) =
      List.map ρ.column <$> groupColumns keys := by
  induction keys with
  | nil => rfl
  | cons key rest ih =>
    unfold groupColumns at ih ⊢
    rw [List.map_cons, List.mapM_cons, List.mapM_cons, ih]
    generalize List.mapM (m := Except QueryError) _ rest = refs
    cases key with
    | column ref => cases refs <;> rfl
    | subquery inner =>
      have hpos : ((Expr.subquery inner).replace ρ).pos = (Expr.subquery inner).pos :=
        ρ.pos_query inner
      exact congrArg (fun pos => Except.error (QueryError.malformedGroup (.keyNotColumn pos))) hpos
    | _ => rfl

end TableQuery
