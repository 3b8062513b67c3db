import TableQuery.Proofs.Evaluation.Pipeline
import TableQuery.Proofs.Evaluation.Values
import TableQuery.Proofs.Table.Group

/-! # What a grouped query results in

The rows left by `where` fall into groups by the values of the grouping columns, and every group
gives one row of the result. Columns in it are those of the first row of the group; aggregates go
over all its rows. -/

namespace TableQuery

open Eval

/-! ## Columns of key rows -/

namespace Scope

variable {scope : Scope} {ref : ColumnRef} {row : Row} {column : Column} {v : Value}

end Scope

/-! ## Values of groups -/

/-- What an expression of the select list holds for the rows of a group, in the frames of a
state. -/
inductive Expr.Summarizes (env : Environment) (s : State) (keys : List ColumnRef)
    (members : List Row) : Expr → Value → Prop where
  /-- A column has the table and name of a grouping column and holds the value of that one on the
  first row. Where columns are shown under their own names, it means that column. -/
  | column {ref key : ColumnRef} {first : Row} {column : Column} {v : Value}
    (hf : members.head? = some first) (hk : key ∈ keys)
    (hv : s.scope.resolve key first = .ok (column, v))
    (ht : s.scope.tableOf ref = .ok column.table)
    (hn : column.label = ref.name ∨ column.name = ref.name)
    (ho : first.OwnLabels → s.scope.resolve ref first = .ok (column, v)) :
    Summarizes env s keys members (.column ref) v
  /-- An aggregate without argument counts rows. -/
  | rows {pos : Position} {callee : Expr} {star : Bool} {name : String} {function : Aggregate}
    {v : Value} (hc : callee.calleeName? = some name)
    (hf : env.functions.aggregate? name = some function)
    (hv : function.apply (.rows members.length) = .ok v) :
    Summarizes env s keys members (.call pos callee [] star) v
  /-- An aggregate goes over the values that its argument has on the rows, in their order. -/
  | values {pos : Position} {callee arg : Expr} {name : String} {function : Aggregate}
    {vs : List Value} {v : Value} (hc : callee.calleeName? = some name)
    (hf : env.functions.aggregate? name = some function)
    (hvs : List.Forall₂ (arg.HasValue env s) members vs)
    (hv : function.apply (.values vs) = .ok v) :
    Summarizes env s keys members (.call pos callee [arg] false) v

section

variable {env : Environment} {s t u : State} {keys : List ColumnRef} {v : Value}

end

/-! ## Groups of a query -/

section

variable {env : Environment} {query : Select} {s t u : State} {table result : Table}

namespace Clause

theorem groupColumns_ok {keys : List Expr} {refs : List ColumnRef}
    (h : groupColumns keys = .ok refs) : keys = refs.map .column := by
  have hall : List.Forall₂ (fun key ref => key = Expr.column ref) keys refs := by
    refine (forall₂_of_mapM h).imp fun key ref he => ?_
    cases key with
    | column other =>
      cases he
      rfl
    | _ => cases he
  exact List.forall₂_eq_eq_eq ▸ List.forall₂_map_right_iff.mpr hall

theorem checkGroupable_ok {functions : Registry} {columns : List SelectColumn}
    (h : checkGroupable functions columns = .ok ()) :
    ∀ column ∈ columns, groupable functions column.expr = true := by
  unfold checkGroupable at h
  split at h
  · next hnone =>
    intro column hc
    simpa using List.find?_eq_none.mp hnone column hc
  · cases h

/-- The rows are grouped by columns, and the select list fits the groups. -/
theorem groups_values {functions : Registry} {keys : List Expr} {columns : List SelectColumn}
    {found : List Group} (h : Returns (groups functions keys columns table) s found t) :
    t = s ∧ (∀ column ∈ columns, groupable functions column.expr = true) ∧
      ∃ refs : List ColumnRef, keys = refs.map .column ∧
        Grouping table.name (fun row => refs.mapM fun ref => s.scope.resolve ref row)
          (keyOf fun row => refs.mapM fun ref => s.scope.resolve ref row) table.rows found := by
  obtain ⟨hr, ht⟩ := Returns.reading h
  obtain ⟨refs, hrefs, hr⟩ := exists_ok_of_bind hr
  obtain ⟨_, hcheck, hr⟩ := exists_ok_of_bind hr
  exact ⟨ht, checkGroupable_ok hcheck, refs, groupColumns_ok hrefs, groupRows_ok hr⟩

/-- The values of the select list on a group make a row. -/
theorem groupRow_values {name : String} {fields : List String} {columns : List SelectColumn}
    {group : Group} {row : Row}
    (h : Returns (groupRow name fields (columns.map fun column => evaluate env column.expr) group)
      s row t) :
    s.Restored t ∧ row.columns = Column.ofFields name fields ∧
      List.Forall₂ (fun (column : SelectColumn) v => ∃ u w, s.Restored u ∧
        Returns (evaluate env column.expr (.ofGroup group.keyRow group.rows)) u v w)
        columns row.values := by
  obtain ⟨values, u, hvalues, h⟩ := Returns.bind h
  obtain ⟨hrow, rfl⟩ := Returns.ofExcept h
  obtain ⟨hcolumns, rfl, -⟩ := Row.ofValues_ok hrow
  rw [List.mapM_map] at hvalues
  have hmoves : ∀ column : SelectColumn,
      ((evaluate env column.expr (.ofGroup group.keyRow group.rows)).mapError ungrouped).Moves
        State.Restored :=
    fun column s => evaluate_moves_restored env column.expr (.ofGroup group.keyRow group.rows) s
  obtain ⟨ht, hall⟩ := Returns.forall₂ hmoves hvalues
  refine ⟨ht, hcolumns, hall.imp fun column v hv => ?_⟩
  obtain ⟨a, b, ha, hv⟩ := hv
  exact ⟨a, b, ha, hv.mapError⟩

/-- Group by group, a table holds the values of the select list. -/
theorem groupTable_values {name : String} {columns : List SelectColumn} {groups : List Group}
    (h : Returns (groupTable name (outputNames columns)
      (columns.map fun column => evaluate env column.expr) groups) s result t) :
    result.name = name ∧ result.fields = outputNames columns ∧
      List.Forall₂ (fun group row => row.columns = Column.ofFields result.name result.fields ∧
        List.Forall₂ (fun (column : SelectColumn) v => ∃ u w, s.Restored u ∧
          Returns (evaluate env column.expr (.ofGroup group.keyRow group.rows)) u v w)
          columns row.values) groups result.rows := by
  obtain ⟨rows, u, hrows, h⟩ := Returns.bind h
  obtain ⟨rfl, -⟩ := Returns.pure h
  have hmoves : ∀ group : Group, (groupRow name (outputNames columns)
      (columns.map fun column => evaluate env column.expr) group).Moves State.Restored := by
    intro group
    refine (restoring env).outer_bind ?_ fun _ => (restoring env).outer_ofExcept _
    refine (restoring env).outer_mapM _ fun meaning hm => ?_
    exact (restoring env).outer_mapError _ (restores_columns env columns meaning hm _)
  refine ⟨rfl, rfl, (Returns.forall₂ hmoves hrows).2.imp fun group row hrow => ?_⟩
  obtain ⟨a, b, ha, hrow⟩ := hrow
  obtain ⟨-, hcolumns, hvalues⟩ := groupRow_values hrow
  refine ⟨hcolumns, hvalues.imp fun column v hv => ?_⟩
  obtain ⟨c, d, hc, hv⟩ := hv
  exact ⟨c, d, ha.trans hc, hv⟩

end Clause

/-! ## Results -/

/-- The rows of one key. -/
def Table.members (table : Table) (key : Row → List GroupKey) (k : List GroupKey) : List Row :=
  table.rows.filter fun row => key row = k

namespace Select

/-- The query reads from a table and groups its rows; nothing comes behind that. -/
structure OnlyGroups (query : Select) (ref : TableRef) : Prop where
  source : query.source = some ref
  groupBy : query.groupBy ≠ []
  having : query.having = none
  orderBy : query.orderBy = []
  limit : query.limit = none
  offset : query.offset = none

end Select

/-- A count without argument is the number of rows. -/
theorem Expr.Summarizes.count {refs : List ColumnRef} {members : List Row} {pos : Position}
    {callee : Expr} {star : Bool} {name : String} {v : Value}
    (h : (Expr.call pos callee [] star).Summarizes env s refs members v)
    (hc : callee.calleeName? = some name) (hf : env.functions.aggregate? name = some .count) :
    v = .number (.ofNat members.length) := by
  cases h with
  | rows hcallee hfunction hv =>
    cases hc.symm.trans hcallee
    cases hf.symm.trans hfunction
    cases hv
    rfl

namespace Select

/-- A query that only groups has been through `where` and the groups. -/
theorem OnlyGroups.returns {ref : TableRef} (h : query.OnlyGroups ref)
    (hr : Returns (evaluateSelect env query) s result t) :
    ∃ table groups u v w,
      Returns ((query.parts env).filtered (evaluateTableRef env false ref)) s.opened table u ∧
      Returns (Clause.groups env.functions query.groupBy query.columns table) u groups v ∧
      Returns (Clause.groupTable (Clause.groupedName table) (Clause.outputNames query.columns)
        (query.columns.map fun column => evaluate env column.expr) groups) v result w := by
  obtain ⟨skipped, a, b, hskipped, hlimit⟩ := evaluateSelect_returns h.source hr
  rw [h.limit] at hlimit
  obtain ⟨rfl, -⟩ := Returns.pure hlimit
  obtain ⟨ordered, c, hordered, hoffset⟩ := Returns.bind hskipped
  simp only [parts, h.offset, Option.map_none] at hoffset
  obtain ⟨rfl, -⟩ := Returns.pure hoffset
  obtain ⟨selected, d, hselected, horder⟩ := Returns.bind hordered
  simp only [h.orderBy, List.isEmpty_nil, if_true] at horder
  obtain ⟨rfl, -⟩ := Returns.pure horder
  obtain ⟨table, u, hfiltered, hgroup⟩ := Returns.bind hselected
  rw [if_neg (by simpa using h.groupBy)] at hgroup
  obtain ⟨groups, v, hgroups, hgroup⟩ := Returns.bind hgroup
  obtain ⟨projected, w, hprojected, hhaving⟩ := Returns.bind hgroup
  simp only [parts, h.having, Option.map_none] at hhaving
  obtain ⟨_, x, -, hhaving⟩ := Returns.bind hhaving
  obtain ⟨rfl, -⟩ := Returns.pure hhaving
  exact ⟨table, groups, u, v, w, hfiltered, hgroups, hprojected⟩

end Select

end

end TableQuery
