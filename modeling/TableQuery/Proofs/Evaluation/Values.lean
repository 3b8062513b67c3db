import TableQuery.Proofs.Evaluation.Sources
import TableQuery.Proofs.Table.Uniform

/-! # Values of a select list

Which values the rows of a result hold: those that the select list has on the rows or groups that it
was evaluated on, one after the other. -/

namespace TableQuery

variable {α β : Type}

namespace Eval

/-- Element by element, in states that have been restored. -/
theorem Returns.forall₂ {act : α → Eval β} (hm : ∀ a, (act a).Moves State.Restored) :
    ∀ {as : List α} {bs : List β} {s t : State}, Returns (as.mapM act) s bs t →
      s.Restored t ∧
        List.Forall₂ (fun a b => ∃ u v, s.Restored u ∧ Returns (act a) u b v) as bs
  | [], bs, s, t, h => by
    rw [List.mapM_nil] at h
    obtain ⟨rfl, rfl⟩ := Returns.pure h
    exact ⟨.refl _, .nil⟩
  | a :: rest, bs, s, t, h => by
    rw [List.mapM_cons] at h
    obtain ⟨first, u, hf, h⟩ := Returns.bind h
    obtain ⟨others, v, ho, h⟩ := Returns.bind h
    obtain ⟨rfl, rfl⟩ := Returns.pure h
    have hu : s.Restored u := Moves.returns (hm a) hf
    obtain ⟨hv, hrest⟩ := Returns.forall₂ hm ho
    refine ⟨hu.trans hv, .cons ⟨s, u, .refl s, hf⟩ (hrest.imp fun a b hb => ?_)⟩
    obtain ⟨w, x, hw, hb⟩ := hb
    exact ⟨w, x, hu.trans hw, hb⟩

/-- A loop of steps that leave the state alone. -/
theorem Returns.mapM_of_forall₂ {act : α → Eval β} {as : List α} {bs : List β} {s : State}
    (h : List.Forall₂ (fun a b => Returns (act a) s b s) as bs) : Returns (as.mapM act) s bs s := by
  induction h with
  | nil => rfl
  | cons hab _ ih =>
    rw [List.mapM_cons]
    exact (runFrom_bind_ok hab).trans ((runFrom_bind_ok ih).trans rfl)

theorem Returns.inChildScope {act : Eval α} {s t : State} {a : α}
    (h : Returns act.inChildScope s a t) : ∃ u, Returns act s.opened a u := by
  obtain ⟨ha, -⟩ := Prod.mk.inj h
  exact ⟨_, Prod.ext ha rfl⟩

/-- What an evaluation yields in a frame of its own it yields when the frame is closed. -/
theorem Returns.closed {act : Eval α} {s u : State} {a : α} (h : Returns act s.opened a u) :
    Returns act.inChildScope s a { u with scope := u.scope.pop, groupSource := s.groupSource } := by
  have hrun : act.inChildScope.runFrom s = ((act.runFrom s.opened).1,
    { (act.runFrom s.opened).2 with
      scope := (act.runFrom s.opened).2.scope.pop, groupSource := s.groupSource }) := rfl
  rw [Returns, hrun, h]

/-- Without a `having` around it, an aggregate evaluates its argument in the frame at hand. -/
theorem Returns.inGroupSource {act : Eval α} {s t : State} {a : α} (hs : s.groupSource = none)
    (h : Returns act.inGroupSource s a t) : Returns act s a t := by
  obtain ⟨scope, groupSource, n⟩ := s
  cases hs
  exact h

theorem Returns.mapError {reword : QueryError → QueryError} {act : Eval α} {s t : State} {a : α}
    (h : Returns (act.mapError reword) s a t) : Returns act s a t := by
  unfold Returns at h ⊢
  rw [runFrom_mapError] at h
  obtain ⟨ha, rfl⟩ := Prod.mk.inj h
  refine Prod.ext ?_ rfl
  cases hr : (act.runFrom s).1 with
  | ok b =>
    rw [hr] at ha
    exact ha
  | error e =>
    rw [hr] at ha
    cases ha

end Eval

open Eval

variable {env : Environment} {query : Select} {s t : State} {result : Table}

/-! ## Values -/

/-- The value that an expression has on a row, in the frames of a state. -/
def Expr.HasValue (env : Environment) (s : State) (expr : Expr) (row : Row) (v : Value) : Prop :=
  ∃ t u, s.Restored t ∧ Returns (evaluate env expr (.ofRow row)) t v u

theorem Expr.HasValue.of_restored {expr : Expr} {row : Row} {v : Value} (hs : s.Restored t)
    (h : expr.HasValue env t row v) : expr.HasValue env s row v := by
  obtain ⟨u, w, hu, h⟩ := h
  exact ⟨u, w, hs.trans hu, h⟩

/-- A column has the value that the reference means on the row in context. -/
theorem evaluate_column_returns {ref : ColumnRef} {context : Context} {row : Row} {v : Value}
    (hc : context.row = some row) (h : Returns (evaluate env (.column ref) context) s v t) :
    ∃ column, s.scope.resolve ref row = .ok (column, v) := by
  simp only [evaluate, hc] at h
  obtain ⟨h, -⟩ := Returns.reading h
  cases hr : s.scope.resolve ref row with
  | error e =>
    rw [hr] at h
    cases h
  | ok cell =>
    rw [hr] at h
    cases h
    exact ⟨cell.1, rfl⟩

theorem Expr.hasValue_column {ref : ColumnRef} {row : Row} {v : Value}
    (h : (Expr.column ref).HasValue env s row v) :
    ∃ column, s.scope.resolve ref row = .ok (column, v) := by
  obtain ⟨t, u, ht, h⟩ := h
  rw [← ht.scope]
  exact evaluate_column_returns rfl h

/-- A query that reads from a table has been through all its clauses. -/
theorem evaluateSelect_returns {ref : TableRef} (hs : query.source = some ref)
    (h : Returns (evaluateSelect env query) s result t) :
    ∃ skipped u v,
      Returns ((query.parts env).skipped env query (evaluateTableRef env false ref)) s.opened
        skipped u ∧
      Returns (Clause.limit (query.limit.map (evaluate env)) skipped) u result v := by
  rw [evaluateSelect_eq] at h
  obtain ⟨v, h⟩ := Returns.inChildScope h
  cases hstar : query.star with
  | true =>
    rw [Select.pipeline_star hstar] at h
    exact (Returns.throw h).elim
  | false =>
    rw [Select.pipeline_from hstar hs] at h
    split at h
    · exact (Returns.throw h).elim
    · obtain ⟨skipped, u, hu, h⟩ := Returns.bind h
      exact ⟨skipped, u, v, hu, h⟩

/-- The select list in an arbitrary context. -/
theorem rowValues_returns {columns : List SelectColumn} {context : Context} {vs : List Value}
    (h : Returns (Clause.rowValues (columns.map fun column => evaluate env column.expr) context)
      s vs t) :
    List.Forall₂ (fun (column : SelectColumn) v => ∃ u w, s.Restored u ∧
      Returns (evaluate env column.expr context) u v w) columns vs := by
  unfold Clause.rowValues at h
  rw [List.mapM_map] at h
  have hm : ∀ column : SelectColumn, (evaluate env column.expr context).Moves State.Restored :=
    fun column => evaluate_moves_restored env column.expr context
  exact (Returns.forall₂ hm h).2

/-- Row by row, a result holds the values of the select list. -/
structure Table.Projects (env : Environment) (s : State) (columns : List SelectColumn)
    (source result : Table) : Prop where
  name : result.name = source.name
  fields : result.fields = Clause.outputNames columns
  rows : List.Forall₂ (fun before row => row.columns = Column.ofFields result.name result.fields ∧
    List.Forall₂ (fun (column : SelectColumn) v => column.expr.HasValue env s before v)
      columns row.values)
    source.rows result.rows

theorem Clause.project_values {columns : List SelectColumn} {table : Table}
    (h : Returns (project (outputNames columns) (columns.map fun column => evaluate env column.expr)
      table) s result t) : table.Projects env s columns result := by
  obtain ⟨projected, u, hp, h⟩ := Returns.bind h
  obtain ⟨_, v, -, h⟩ := Returns.bind h
  obtain ⟨rfl, -⟩ := Returns.pure h
  obtain ⟨rows, w, hrows, hp⟩ := Returns.bind hp
  obtain ⟨rfl, -⟩ := Returns.pure hp
  have hvalues := (restoring env).outer_rowValues (restores_columns env columns)
  refine ⟨rfl, rfl, (Returns.forall₂ (fun row => ?_) hrows).2.imp fun before row hrow => ?_⟩
  · refine (restoring env).outer_bind (hvalues (.ofRow row)) fun values => ?_
    split
    · exact (restoring env).outer_pure _
    · exact (restoring env).outer_throw _
  obtain ⟨a, b, ha, hrow⟩ := hrow
  obtain ⟨values, c, hv, hrow⟩ := Returns.bind hrow
  split at hrow
  · next made hmade =>
    obtain ⟨rfl, -⟩ := Returns.pure hrow
    obtain ⟨hcolumns, hmade, -⟩ := Row.ofValues_ok hmade
    rw [hmade]
    refine ⟨hcolumns, (rowValues_returns hv).imp fun column v hcell => ?_⟩
    obtain ⟨x, y, hx, hcell⟩ := hcell
    exact ⟨x, y, ha.trans hx, hcell⟩
  · exact (Returns.throw hrow).elim

end TableQuery
