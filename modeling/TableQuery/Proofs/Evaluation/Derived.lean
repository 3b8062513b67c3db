import TableQuery.Proofs.Evaluation.Having

/-! # Derived tables

A query in `from` stands for its own result. It runs one frame further in than it does by itself,
and its rows come out under the label; but where its columns have different names, every value is
found again by the name of its column, whether or not the label stands before the name. -/

namespace TableQuery

open Eval

variable {env : Environment} {query : Select} {s t u v : State} {table result : Table}
  {columns : List SelectColumn}

/-! ## Results of queries -/

/-- The table is uniform, and its fields are the names of a select list. -/
structure Table.Lists (columns : List SelectColumn) (table : Table) : Prop where
  fields : table.fields = Clause.outputNames columns
  uniform : table.Uniform

theorem Table.Lists.left (h : table.Lists columns) (hr : table.LeftWith result) :
    result.Lists columns := by
  obtain ⟨rows, rfl, hrows⟩ := hr
  exact ⟨h.fields, h.uniform.withRows hrows⟩

namespace Clause

theorem single_lists (h : Returns (single (outputNames columns)
    (columns.map fun column => evaluate env column.expr)) s result t) : result.Lists columns := by
  obtain ⟨values, u, -, h⟩ := Returns.bind h
  obtain ⟨row, v, hrow, h⟩ := Returns.bind h
  obtain ⟨rfl, -⟩ := Returns.pure h
  obtain ⟨hcolumns, hvalues, hlength⟩ := Row.ofValues_ok (Returns.ofExcept hrow).1
  refine ⟨rfl, fun other hother => ?_⟩
  cases List.mem_singleton.mp hother
  exact ⟨hcolumns, by rw [hvalues, hlength]⟩

theorem project_lists (h : Returns (project (outputNames columns)
    (columns.map fun column => evaluate env column.expr) table) s result t) :
    result.Lists columns := by
  obtain ⟨-, hfields, hrows⟩ := project_values h
  refine ⟨hfields, fun row hrow => ?_⟩
  obtain ⟨i, hi, rfl⟩ := List.getElem_of_mem hrow
  obtain ⟨hcolumns, hvalues⟩ := (List.forall₂_iff_get.mp hrows).2 i (hrows.length_eq ▸ hi) hi
  refine ⟨hcolumns, ?_⟩
  rw [hfields, outputNames, List.length_mapIdx]
  exact hvalues.length_eq.symm

theorem group_lists {keys : List Expr} {condition : Option Expr}
    (h : Returns (group env keys columns (columns.map fun column => evaluate env column.expr)
      (condition.map (evaluate env)) table) s result t) : result.Lists columns := by
  obtain ⟨groups, u, -, h⟩ := Returns.bind h
  obtain ⟨projected, v, hprojected, h⟩ := Returns.bind h
  obtain ⟨hfields, huniform, -⟩ := groupTable_uniform hprojected
  obtain ⟨-, -, hleft⟩ := having_returns h
  exact Table.Lists.left ⟨hfields, huniform⟩ hleft

theorem order_left {keys : List OrderKey} (h : Returns (order keys table) s result t) :
    table.LeftWith result := by
  unfold order at h
  split at h
  · exact (Returns.throw h).elim
  · exact left_of_sort (Returns.reading h).1

theorem offset_left {meaning : Option Meaning} (h : Returns (offset meaning table) s result t) :
    table.LeftWith result := by
  cases meaning with
  | none =>
    obtain ⟨rfl, -⟩ := Returns.pure h
    exact .refl _
  | some count =>
    obtain ⟨n, u, -, h⟩ := Returns.bind h
    obtain ⟨rfl, -⟩ := Returns.pure h
    exact ⟨_, rfl, fun _ => List.mem_of_mem_drop⟩

theorem limit_left {meaning : Option Meaning} (h : Returns (limit meaning table) s result t) :
    table.LeftWith result := by
  cases meaning with
  | none =>
    obtain ⟨rfl, -⟩ := Returns.pure h
    exact .refl _
  | some count =>
    obtain ⟨n, u, -, h⟩ := Returns.bind h
    obtain ⟨rfl, -⟩ := Returns.pure h
    exact ⟨_, rfl, fun _ => List.mem_of_mem_take⟩

end Clause

namespace Select

theorem ordered_lists {source : Eval Table}
    (h : Returns ((query.parts env).ordered env query source) s result t) :
    result.Lists query.columns := by
  obtain ⟨selected, u, hselected, h⟩ := Returns.bind h
  have hlists : selected.Lists query.columns := by
    obtain ⟨table, v, -, hselected⟩ := Returns.bind hselected
    split at hselected
    · exact Clause.project_lists hselected
    · exact Clause.group_lists hselected
  split at h
  · obtain ⟨rfl, -⟩ := Returns.pure h
    exact hlists
  · exact hlists.left (Clause.order_left h)

/-- Every query with a result has one column for every item of its select list. -/
theorem pipeline_lists (h : Returns (query.pipeline env) s result t) :
    result.Lists query.columns := by
  cases hstar : query.star with
  | true =>
    rw [pipeline_star hstar] at h
    exact (Returns.throw h).elim
  | false =>
    cases hsource : query.source with
    | none =>
      rw [pipeline_single hstar hsource] at h
      exact Clause.single_lists h
    | some ref =>
      rw [pipeline_from hstar hsource] at h
      split at h
      · exact (Returns.throw h).elim
      · obtain ⟨skipped, u, hskipped, h⟩ := Returns.bind h
        obtain ⟨ordered, v, hordered, hskipped⟩ := Returns.bind hskipped
        exact ((ordered_lists hordered).left (Clause.offset_left hskipped)).left
          (Clause.limit_left h)

/-! ## Queries inside others -/

/-- What a query yields by itself it yields inside another query. -/
theorem evaluateSelect_opened (h : Returns (evaluateSelect env query) s result t) :
    ∃ inner u, Returns (evaluateSelect env query) s.opened inner u ∧ u.scope = s.opened.scope ∧
      inner.Lists query.columns ∧ inner.content = result.content := by
  have hrelates := relates_pipeline (Renaming.same env.settings.labelStem)
    ((steps_renamed (Renaming.same env.settings.labelStem)).parts query)
    (partsFit fun _ _ => trivial) _ _ (opened_renamed s)
  rw [evaluateSelect_eq] at h
  obtain ⟨v, hv⟩ := Returns.inChildScope h
  rw [hv] at hrelates
  generalize hrun : (query.pipeline env).runFrom s.opened.opened = run at hrelates
  cases hrelates with
  | @yield _ inner _ w hp _ =>
    have hinner := evaluateSelect_eq env query ▸ Returns.closed hrun
    have hscope := (Moves.returns (evaluateSelect_moves_restored env query) hinner).scope
    exact ⟨inner, _, hinner, hscope, pipeline_lists hrun, hp.content.symm⟩

variable {pos refPos : Position} {label : String} {refs : List ColumnRef}

/-- In the frame with a derived table, its fields are found by names alone and by names behind its
label. -/
theorem tableOf_derived (hv : v.scope = s.opened.scope) (hname : table.name = label)
    {col : ColumnRef} (hq : col.table = none ∨ col.table = some label)
    (hcol : col.name ∈ table.fields) : (v.scope.bind table label).tableOf col = .ok label := by
  rcases hq with hnone | hsome
  · have hsole : (v.scope.bind table label).innermost.allTables = [table] := by
      rw [hv]
      rfl
    rw [Scope.tableOf_sole hsole hnone hcol, hname]
  · have hlabel : (v.scope.bind table label).tableName? label = some label := by
      have hown : (v.scope.innermost.bind table label).tableName? label = some label := by
        rw [Frame.tableName?_bind, if_pos (.inl rfl), hname]
      rw [Scope.tableName?_eq]
      show ((v.scope.innermost.bind table label).tableName? label).or _ = some label
      rw [hown]
      rfl
    rw [Scope.tableOf, hsome]
    simp only [Scope.qualified, hlabel, Option.some_or]

/-- A derived table is transparent: the query for all columns of another query's result, each by its
name or by label and name, succeeds where the other one does and gives the same fields and rows of
values in the same order. -/
theorem derived_table_transparent (h : Returns (evaluateSelect env query) s result t)
    (hn : (Clause.outputNames query.columns).Nodup)
    (hrefs : refs.map (·.name) = Clause.outputNames query.columns)
    (hq : ∀ col ∈ refs, col.table = none ∨ col.table = some label)
    (hl : s.scope.tableName? label = none) :
    ∃ listed u, Returns (evaluateSelect env
        (listing pos ⟨refPos, .subquery query, some label⟩ refs none)) s listed u ∧
      listed.content = result.content := by
  obtain ⟨inner, v, hinner, hscope, ⟨hfields, huniform⟩, hcontent⟩ := evaluateSelect_opened h
  have hbound : Returns (evaluateTableRef env false ⟨refPos, .subquery query, some label⟩) s.opened
      (inner.renamed label) { v with scope := v.scope.bind (inner.renamed label) label } := by
    rw [Returns, runFrom_derived]
    exact (runFrom_bind_ok hinner).trans (bindTable_free env _ hscope hl)
  have hcols : ∀ col ∈ refs,
      (v.scope.bind (inner.renamed label) label).tableOf col = .ok label := by
    intro col hcol
    have hname : col.name ∈ inner.fields := by
      rw [hfields, ← hrefs]
      exact List.mem_map_of_mem hcol
    exact tableOf_derived hscope rfl (hq col hcol) hname
  obtain ⟨listed, w, hlisted, hsame⟩ := Clause.project_found env (a := inner.renamed label)
    (s := { v with scope := v.scope.bind (inner.renamed label) label }) (hfields ▸ hn)
    (hrefs.trans hfields.symm) hcols (huniform.renamed label) (fun _ hrow => hrow)
  have hpipeline : Returns
      ((listing pos ⟨refPos, .subquery query, some label⟩ refs none).pipeline env) s.opened listed
      w := by
    rw [pipeline_listing, hrefs, ← hfields]
    exact (runFrom_bind_ok hbound).trans hlisted
  exact ⟨listed, _, evaluateSelect_eq env (listing ..) ▸ Returns.closed hpipeline,
    hsame.trans ((inner.content_renamed label).trans hcontent)⟩

/-- Counted texts, the first column behind the label. -/
theorem counts_listed_from_derived :
    ∃ (query : Select) (refs : List ColumnRef) (label : String) (s t : State) (result : Table),
      Returns (evaluateSelect ⟨.standard, .standard⟩ query) s result t ∧
      (Clause.outputNames query.columns).Nodup ∧
      refs.map (·.name) = Clause.outputNames query.columns ∧
      (∀ col ∈ refs, col.table = none ∨ col.table = some label) ∧
      s.scope.tableName? label = none ∧
      result.content = (["x", "n"], [[.text "p", .number (.ofNat 2)],
        [.text "q", .number (.ofNat 1)]]) ∧
      ∃ listed u, Returns (evaluateSelect ⟨.standard, .standard⟩
          (listing .start ⟨.start, .subquery query, some label⟩ refs none)) s listed u ∧
        listed.content = result.content := by
  let query : Select := ⟨.start, false, [⟨.column ⟨.start, some "a", "x"⟩, none⟩,
    ⟨.call .start (.column ⟨.start, none, "count"⟩) [] true, some "n"⟩],
    some ⟨.start, .table "t", some "a"⟩, [], none, [.column ⟨.start, none, "x"⟩], none, [], none,
    none⟩
  let s : State := ⟨.ofRoot (Frame.empty.setTable "t" ⟨"t", ["x"], ["p", "q", "p"].map fun text =>
    ⟨[("t", 0)], [⟨"t", "x", "x", 0⟩], [.text text]⟩⟩), none, 0⟩
  let result : Table := ⟨"t_groupby", ["x", "n"], [("p", 2), ("q", 1)].map fun entry =>
    ⟨[("t_groupby", 0)], Column.ofFields "t_groupby" ["x", "n"],
      [.text entry.1, .number (.ofNat entry.2)]⟩⟩
  have hr : Returns (evaluateSelect ⟨.standard, .standard⟩ query) s result
      ((evaluateSelect ⟨.standard, .standard⟩ query).runFrom s).2 := rfl
  have hq : ∀ col ∈ [ColumnRef.mk .start (some "s") "x", ⟨.start, none, "n"⟩],
      col.table = none ∨ col.table = some "s" := by decide
  exact ⟨query, _, "s", s, _, result, hr, by decide, rfl, hq, by decide, rfl,
    derived_table_transparent hr (by decide) rfl hq (by decide)⟩

end Select

end TableQuery
