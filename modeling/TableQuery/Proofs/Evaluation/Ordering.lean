import Mathlib
import TableQuery.Proofs.Evaluation.Values
import TableQuery.Proofs.Table.Sort

/-! # What a query sorts by

Sort keys are looked up in the projection, so a key means the output column that has its name, from
whatever expression that column was made, and whatever the qualifier. -/

namespace TableQuery

open Eval

variable {env : Environment} {query : Select} {s t u : State} {table result : Table}

/-! ## Sort keys -/

/-- The place of the first output column with a name. -/
def Select.place (query : Select) (name : String) : Nat :=
  (Clause.outputNames query.columns).idxOf name

/-- The values of the output columns that the sort keys name. -/
def Select.sortValues (query : Select) (row : Row) : List Value :=
  query.orderBy.map fun key => (row.values[query.place key.column.name]?).getD .null

/-- What a reference means depends on its table and its name. -/
theorem Scope.resolve_congr {scope : Scope} {ref other : ColumnRef} (ht : ref.table = other.table)
    (hn : ref.name = other.name) (row : Row) : scope.resolve ref row = scope.resolve other row := by
  obtain ⟨pos, table, name⟩ := ref
  cases ht
  cases hn
  rfl

/-- A sort key that is found on a row of the result is the value of the only column with its
name. -/
theorem Select.sortKey_ok {scope : Scope} {key : OrderKey} {row : Row} {v : Value} {name : String}
    (hrow : row.columns = Column.ofFields name (Clause.outputNames query.columns))
    (h : (·.2) <$> scope.resolve key.column row = .ok v) :
    (Clause.outputNames query.columns).count key.column.name = 1 ∧
      row.values[query.place key.column.name]? = some v := by
  cases hr : scope.resolve key.column row with
  | error e =>
    rw [hr] at h
    cases h
  | ok cell =>
    rw [hr] at h
    cases h
    obtain ⟨-, hcolumn, hv⟩ := Scope.resolve_eq_ok.mp hr
    obtain ⟨hcount, hindex⟩ := Row.column_ofFields hrow hcolumn
    rw [hindex] at hv
    exact ⟨hcount, hv⟩

/-- The keys of a row of the result, where all of them are found, are values of output columns. -/
theorem Select.sortKeys_ok {scope : Scope} {row : Row} {vs : List Value} {name : String}
    (hrow : row.columns = Column.ofFields name (Clause.outputNames query.columns))
    (h : (query.orderBy.mapM fun key => (·.2) <$> scope.resolve key.column row) = .ok vs) :
    query.sortValues row = vs ∧ ∀ key ∈ query.orderBy,
      (Clause.outputNames query.columns).count key.column.name = 1 := by
  have hfound := (forall₂_of_mapM h).imp fun _ _ hv => Select.sortKey_ok hrow hv
  constructor
  · have hvalues : query.sortValues row = vs.map id := map_eq_map_of_forall₂
      (hfound.imp fun key v hv => congrArg (·.getD Value.null) hv.2)
    rw [hvalues, List.map_id]
  · intro key hk
    obtain ⟨i, hi⟩ := List.mem_iff_getElem?.mp hk
    obtain ⟨v, -, hcount, -⟩ := forall₂_getElem? hfound hi
    exact hcount

/-! ## Sorted results -/

/-- Row by row, the select list has been evaluated on a source row, and no row comes behind one with
greater values in the output columns that the sort keys name. -/
structure Select.Sorts (env : Environment) (query : Select) (s : State) (sources : List Row)
    (result : Table) : Prop where
  fields : result.fields = Clause.outputNames query.columns
  values : List.Forall₂ (fun source row => List.Forall₂ (fun (column : SelectColumn) v =>
    column.expr.HasValue env s source v) query.columns row.values) sources result.rows
  /-- Exactly one output column has the name of a key. -/
  named : result.rows ≠ [] → ∀ key ∈ query.orderBy,
    (Clause.outputNames query.columns).count key.column.name = 1
  sorted : result.rows.Pairwise fun a b =>
    compareKeys (query.orderBy.map (·.direction)) (query.sortValues a) (query.sortValues b) ≠ .gt
  /-- If that column was made of the same reference, rows are sorted by what it means on their
  sources. -/
  own : ∀ key ∈ query.orderBy, ∀ ref : ColumnRef,
    (query.columns[query.place key.column.name]?).map (·.expr) = some (.column ref) →
    ref.table = key.column.table → ref.name = key.column.name →
    List.Forall₂ (fun source row => ∃ column v,
      s.scope.resolve key.column source = .ok (column, v) ∧
        row.values[query.place key.column.name]? = some v) sources result.rows

/-- A column of the select list holds what its reference means on the source of a row. -/
theorem Select.value_of_column {source row : Row} {key ref : ColumnRef} {i : Nat}
    (h : List.Forall₂ (fun (column : SelectColumn) v => column.expr.HasValue env s source v)
      query.columns row.values)
    (hi : (query.columns[i]?).map (·.expr) = some (.column ref)) (ht : ref.table = key.table)
    (hn : ref.name = key.name) :
    ∃ column v, s.scope.resolve key source = .ok (column, v) ∧ row.values[i]? = some v := by
  obtain ⟨column, hcolumn, hexpr⟩ := Option.map_eq_some_iff.mp hi
  obtain ⟨v, hv, hvalue⟩ := forall₂_getElem? h hcolumn
  rw [hexpr] at hvalue
  obtain ⟨found, hfound⟩ := Expr.hasValue_column hvalue
  rw [Scope.resolve_congr ht hn] at hfound
  exact ⟨found, v, hfound, hv⟩

/-- A result sorted by the keys of the query. -/
theorem Clause.order_sorts {sorted : Table} (hk : query.orderBy ≠ [])
    (hp : table.Projects env s query.columns result)
    (h : Returns (order query.orderBy result) t sorted u) :
    ∃ sources, sources.Perm table.rows ∧ query.Sorts env s sources sorted := by
  unfold order at h
  rw [if_neg (by simpa using hk)] at h
  obtain ⟨h, -⟩ := Returns.reading h
  have hwidth : ∀ row ∈ result.rows, ∀ vs,
      (query.orderBy.mapM fun key => (·.2) <$> t.scope.resolve key.column row) = .ok vs →
        vs.length = (query.orderBy.map (·.direction)).length := by
    intro row _ vs hvs
    rw [List.length_map, (forall₂_of_mapM hvs).length_eq]
  obtain ⟨entries, rfl, hperm, hkeys, hpairwise⟩ := Table.sort_ok hwidth h
  -- the sources move along with the rows that were projected from them
  obtain ⟨sources, hall, hsources⟩ := List.perm_comp_forall₂ hperm hp.rows.flip
  have hvalues := hall.flip.imp fun source row hrow => hrow.2
  have hrow : ∀ entry ∈ entries,
      entry.2.columns = Column.ofFields result.name (Clause.outputNames query.columns) := by
    intro entry he
    obtain ⟨i, hi⟩ := List.mem_iff_getElem?.mp (List.mem_map_of_mem (f := (·.2)) he)
    obtain ⟨source, -, hcolumns, -⟩ := forall₂_getElem? hall hi
    rw [← hp.fields]
    exact hcolumns
  have hsort : ∀ entry ∈ entries, query.sortValues entry.2 = entry.1 ∧ ∀ key ∈ query.orderBy,
      (Clause.outputNames query.columns).count key.column.name = 1 :=
    fun entry he => Select.sortKeys_ok (hrow entry he) (hkeys entry he)
  refine ⟨sources, hsources, hp.fields, hvalues, fun hne => ?_, ?_, fun key hm ref hi ht hn => ?_⟩
  · obtain ⟨row, hm⟩ := List.exists_mem_of_ne_nil _ hne
    obtain ⟨entry, he, -⟩ := List.mem_map.mp hm
    exact (hsort entry he).2
  · refine List.pairwise_map.mpr (hpairwise.imp_of_mem fun {a b} ha hb hab => ?_)
    rw [(hsort a ha).1, (hsort b hb).1]
    exact hab
  · exact hvalues.imp fun source row hrow => Select.value_of_column hrow hi ht hn

/-! ## Slices -/

namespace Select.Sorts

variable {sources : List Row}

theorem skip (h : query.Sorts env s sources table) (n : Nat) :
    query.Sorts env s (sources.drop n) (table.skip n) where
  fields := h.fields
  values := List.forall₂_drop n h.values
  named hne := h.named fun hnil => hne (by rw [Table.skip, Table.withRows, hnil, List.drop_nil])
  sorted := h.sorted.drop
  own key hm ref hi ht hn := List.forall₂_drop n (h.own key hm ref hi ht hn)

theorem take (h : query.Sorts env s sources table) (n : Nat) :
    query.Sorts env s (sources.take n) (table.take n) where
  fields := h.fields
  values := List.forall₂_take n h.values
  named hne := h.named fun hnil => hne (by rw [Table.take, Table.withRows, hnil, List.take_nil])
  sorted := h.sorted.take
  own key hm ref hi ht hn := List.forall₂_take n (h.own key hm ref hi ht hn)

theorem offset {meaning : Option Meaning} (h : query.Sorts env s sources table)
    (hr : Returns (Clause.offset meaning table) t result u) :
    ∃ kept, kept.Sublist sources ∧ (meaning = none → kept = sources) ∧
      query.Sorts env s kept result := by
  cases meaning with
  | none =>
    obtain ⟨rfl, -⟩ := Returns.pure hr
    exact ⟨sources, .refl _, fun _ => rfl, h⟩
  | some count =>
    obtain ⟨n, v, -, hr⟩ := Returns.bind hr
    obtain ⟨rfl, -⟩ := Returns.pure hr
    exact ⟨sources.drop n, List.drop_sublist n sources, nofun, h.skip n⟩

theorem limit {meaning : Option Meaning} (h : query.Sorts env s sources table)
    (hr : Returns (Clause.limit meaning table) t result u) :
    ∃ kept, kept.Sublist sources ∧ (meaning = none → kept = sources) ∧
      query.Sorts env s kept result := by
  cases meaning with
  | none =>
    obtain ⟨rfl, -⟩ := Returns.pure hr
    exact ⟨sources, .refl _, fun _ => rfl, h⟩
  | some count =>
    obtain ⟨n, v, -, hr⟩ := Returns.bind hr
    obtain ⟨rfl, -⟩ := Returns.pure hr
    exact ⟨sources.take n, List.take_sublist n sources, nofun, h.take n⟩

end Select.Sorts

/-! ## Queries -/

namespace Select

/-- An ungrouped query with sort keys has been through `where`, the select list and the sort. -/
theorem ordered_sorts {ref : TableRef} (hg : query.groupBy = []) (ho : query.orderBy ≠ [])
    (h : Returns ((query.parts env).ordered env query (evaluateTableRef env false ref)) s result
      t) :
    ∃ table u sources,
      Returns ((query.parts env).filtered (evaluateTableRef env false ref)) s table u ∧
        sources.Perm table.rows ∧ query.Sorts env u sources result := by
  obtain ⟨selected, v, hselected, horder⟩ := Returns.bind h
  rw [if_neg (by simpa using ho)] at horder
  obtain ⟨table, u, hfiltered, hproject⟩ := Returns.bind hselected
  rw [hg, List.isEmpty_nil, if_pos rfl] at hproject
  obtain ⟨sources, hperm, hsorts⟩ := Clause.order_sorts ho (Clause.project_values hproject) horder
  exact ⟨table, u, sources, hfiltered, hperm, hsorts⟩

/-- If an ungrouped query with sort keys succeeds, its rows have been projected from rows left by
`where` and are in the order of the values that they have in the output columns named by the keys:
those of a key's own column where the select list has that one under the name, and those of whatever
expression else. -/
theorem rows_sorted_by_output_columns {ref : TableRef} (hs : query.source = some ref)
    (hg : query.groupBy = []) (ho : query.orderBy ≠ [])
    (h : Returns (evaluateSelect env query) s result t) :
    ∃ table u sources,
      Returns ((query.parts env).filtered (evaluateTableRef env false ref)) s.opened table u ∧
        sources.Subperm table.rows ∧
        (query.offset = none → query.limit = none → sources.Perm table.rows) ∧
        query.Sorts env u sources result := by
  obtain ⟨skipped, a, b, hskipped, hlimit⟩ := evaluateSelect_returns hs h
  obtain ⟨ordered, c, hordered, hoffset⟩ := Returns.bind hskipped
  obtain ⟨table, u, sources, hfiltered, hperm, hsorts⟩ := ordered_sorts hg ho hordered
  obtain ⟨left, hleft, hleftAll, hsorts⟩ := hsorts.offset hoffset
  obtain ⟨kept, hkept, hkeptAll, hsorts⟩ := hsorts.limit hlimit
  refine ⟨table, u, kept, hfiltered, ?_, fun hnoOffset hnoLimit => ?_, hsorts⟩
  · exact (hkept.trans hleft).subperm.trans hperm.subperm
  · rw [hkeptAll (by rw [hnoLimit]; rfl), hleftAll (by simp only [parts, hnoOffset]; rfl)]
    exact hperm

theorem two_texts_sorted :
    ∃ (query : Select) (ref : TableRef) (s t : State) (result : Table), query.source = some ref ∧
      query.groupBy = [] ∧ query.orderBy ≠ [] ∧
      Returns (evaluateSelect ⟨.standard, .standard⟩ query) s result t ∧
      result.valueRows = [[.text "p"], [.text "q"]] ∧
      ∃ table u sources,
        Returns ((query.parts ⟨.standard, .standard⟩).filtered
          (evaluateTableRef ⟨.standard, .standard⟩ false ref)) s.opened table u ∧
        sources.Subperm table.rows ∧
        (query.offset = none → query.limit = none → sources.Perm table.rows) ∧
        query.Sorts ⟨.standard, .standard⟩ u sources result := by
  refine ⟨⟨.start, false, [⟨.column ⟨.start, some "a", "x"⟩, none⟩],
      some ⟨.start, .table "t", some "a"⟩, [], none, [], none,
      [⟨⟨.start, some "a", "x"⟩, .ascending⟩], none, none⟩,
    ⟨.start, .table "t", some "a"⟩,
    ⟨.ofRoot (Frame.empty.setTable "t" ⟨"t", ["x"], ["q", "p"].map fun text =>
      ⟨[("t", 0)], [⟨"t", "x", "x", 0⟩], [.text text]⟩⟩), none, 0⟩,
    _, _, rfl, rfl, List.cons_ne_nil _ _, rfl, by cbv, ?_⟩
  exact rows_sorted_by_output_columns rfl rfl (List.cons_ne_nil _ _) rfl

/-- A sort key with the label of a table finds another column of the table where the select list has
that one under the key's name. -/
theorem sort_key_finds_other_column :
    ¬∀ (env : Environment) (query : Select) (ref : TableRef) (key : ColumnRef) (label : String)
      (s t : State) (result : Table),
      query.source = some ref → ref.label = some label → key.table = some label →
      query.groupBy = [] → query.orderBy = [⟨key, .ascending⟩] → query.offset = none →
      query.limit = none → Returns (evaluateSelect env query) s result t →
      ∃ table u sources,
        Returns ((query.parts env).filtered (evaluateTableRef env false ref)) s.opened table u ∧
          sources.Perm table.rows ∧
          List.Forall₂ (fun source row => List.Forall₂ (fun (column : SelectColumn) v =>
            column.expr.HasValue env u source v) query.columns row.values) sources result.rows ∧
          sources.Pairwise fun a b => ∀ left right v w,
            u.scope.resolve key a = .ok (left, v) → u.scope.resolve key b = .ok (right, w) →
              v.sortCompare? w ≠ some .gt := by
  intro h
  let ref : TableRef := ⟨.start, .table "t", some "a"⟩
  let key : ColumnRef := ⟨.start, some "a", "x"⟩
  let query : Select := ⟨.start, false, [⟨.column ⟨.start, some "a", "y"⟩, some "x"⟩], some ref,
    [], none, [], none, [⟨key, .ascending⟩], none, none⟩
  let row (x y : Nat) : Row :=
    ⟨[("t", 0)], Column.ofFields "t" ["x", "y"], [.number (.ofNat x), .number (.ofNat y)]⟩
  let base : Table := ⟨"t", ["x", "y"], [row 1 20, row 2 10]⟩
  let s : State := ⟨.ofRoot (Frame.empty.setTable "t" base), none, 0⟩
  let bound : State := ⟨(s.opened.scope.setTable "t" base).setLabel "a" "t", none, 0⟩
  let result : Table := ⟨"t", ["x"], [10, 20].map fun n =>
    ⟨[("t", 0)], Column.ofFields "t" ["x"], [.number (.ofNat n)]⟩⟩
  have hr : Returns (evaluateSelect ⟨.standard, .standard⟩ query) s result
      ((evaluateSelect ⟨.standard, .standard⟩ query).runFrom s).2 := Prod.ext (by cbv) rfl
  obtain ⟨table, u, sources, hf, hperm, hall, hsorted⟩ :=
    h ⟨.standard, .standard⟩ query ref key "a" s _ result rfl rfl rfl rfl rfl rfl rfl hr
  obtain ⟨rfl, rfl⟩ : table = base ∧ u = bound := by
    cases hf
    exact ⟨rfl, rfl⟩
  have hvalue : ∀ {x y n : Nat}, List.Forall₂ (fun (column : SelectColumn) v =>
      column.expr.HasValue ⟨.standard, .standard⟩ bound (row x y) v) query.columns
        [.number (.ofNat n)] →
      (.number (.ofNat n) : Value) = .number (.ofNat y) := by
    intro x y n hn
    cases hn with
    | cons hn _ =>
      obtain ⟨column, hc⟩ := Expr.hasValue_column hn
      have hy : bound.scope.resolve ⟨.start, some "a", "y"⟩ (row x y) =
        .ok (⟨"t", "y", "y", 1⟩, .number (.ofNat y)) := rfl
      exact (Prod.mk.inj (Except.ok.inj (hc.symm.trans hy))).2
  have hrows : ∀ source ∈ sources, source = row 1 20 ∨ source = row 2 10 := by
    intro source hm
    simpa [base] using hperm.mem_iff.mp hm
  cases hall with
  | @cons a _ _ _ ha hall =>
    cases hall with
    | @cons b _ _ _ hb hall =>
      cases hall
      have hab := List.rel_of_pairwise_cons hsorted List.mem_cons_self
      -- the rows are taken in the order of y
      rcases hrows a List.mem_cons_self with rfl | rfl
      · exact absurd (hvalue ha) (by decide)
      rcases hrows b (by simp) with rfl | rfl
      · exact hab _ _ _ _ rfl rfl (by decide)
      · exact absurd (hvalue hb) (by decide)

end Select

end TableQuery
