import TableQuery.Proofs.Evaluation.Guarantee
import TableQuery.Proofs.Query.Everywhere
import TableQuery.Proofs.Table.Group

/-! # Evaluation keeps tables uniform

Every clause of a query makes uniform tables of uniform tables, and laid-out rows of the tables that
it joins. So each column that a reference finds has its value, and what can fail is what a query can
get wrong. The one exception is a `case` with results missing, which is left out by a condition on
the tree. -/

namespace TableQuery

open Eval

variable {env : Environment} {tidy : Prop}

/-! ## References -/

namespace Scope

theorem clean_qualified (scope : Scope) (qualifier : String) :
    Clean (scope.qualified qualifier) := by
  unfold qualified
  split
  · exact clean_ok _
  · exact clean_error id

theorem clean_tableOf (scope : Scope) (ref : ColumnRef) : Clean (scope.tableOf ref) := by
  unfold tableOf owner
  split
  · exact scope.clean_qualified _
  · split
    · exact clean_error id
    · exact clean_ok _
    · exact clean_error id

end Scope

theorem Row.clean_findColumn (row : Row) (name table : String) (property : Column → Bool) :
    Clean (row.findColumn name table property) := by
  unfold findColumn
  split
  · exact clean_ok _
  · exact clean_ok _
  · exact clean_error id

theorem Row.clean_column (row : Row) (name table : String) : Clean (row.column name table) := by
  refine (row.clean_findColumn _ _ _).bind fun found _ => ?_
  cases found with
  | some column => exact clean_ok _
  | none => exact row.clean_findColumn _ _ _

/-- Where every column has a value, no value is missing. -/
theorem Scope.clean_resolve (scope : Scope) (ref : ColumnRef) {row : Row} (h : row.Indexed) :
    Clean (scope.resolve ref row) := by
  refine (scope.clean_tableOf ref).bind fun table _ => ?_
  refine (row.clean_column ref.name table).bind fun found hf => ?_
  cases found with
  | none => exact clean_error id
  | some column =>
    have hi : column.index < row.values.length := h column (Row.mem_of_column hf).1
    dsimp only
    rw [List.getElem?_eq_getElem hi]
    exact clean_ok _

/-! ## Groups -/

theorem Group.clean_insert (keys : List GroupKey) (keyRow row : Row) (groups : List Group) :
    Clean (insert keys (.ok keyRow) row groups) := by
  by_cases hm : keys ∈ groups.map (·.keys)
  · obtain ⟨_, _, _, _, _, hi⟩ := insert_of_mem (.ok keyRow) row hm
    rw [hi]
    exact clean_ok _
  · rw [insert_of_not_mem hm]
    exact clean_ok _

theorem clean_groupRows {cells : Row → Except QueryError (List (Column × Value))}
    (table : String) {rows : List Row} (h : ∀ row ∈ rows, Clean (cells row)) :
    Clean (groupRows table cells rows) := by
  rw [groupRows_eq]
  generalize ([] : List Group) = groups
  induction rows generalizing groups with
  | nil => exact clean_ok _
  | cons row rest ih =>
    have hrest := ih fun other ho => h other (List.mem_cons_of_mem _ ho)
    rw [List.foldlM_cons]
    refine Clean.bind ?_ fun next _ => hrest next
    refine (h row List.mem_cons_self).bind fun own _ => ?_
    refine (Clean.mapM fun cell _ => GroupKey.clean_ofValue cell.2).bind fun keys _ => ?_
    rw [Row.ofColumns_cells]
    exact Group.clean_insert keys _ row groups

/-! ## Contexts and meanings -/

/-- Every column has a value, in the row and in the rows of the group. -/
structure Context.Indexed (context : Context) : Prop where
  row : ∀ row, context.row = some row → row.Indexed
  group : ∀ rows, context.group = some rows → ∀ row ∈ rows, row.Indexed

theorem Context.indexed_none : Context.none.Indexed := ⟨nofun, nofun⟩

theorem Context.indexed_ofRow {row : Row} (h : row.Indexed) : (Context.ofRow row).Indexed := by
  refine ⟨fun other ho => ?_, nofun⟩
  cases ho
  exact h

/-- The same for a group and its key row. -/
structure Group.Indexed (group : Group) : Prop where
  keyRow : group.keyRow.Indexed
  rows : ∀ row ∈ group.rows, row.Indexed

theorem Group.Indexed.context {group : Group} (h : group.Indexed) {row : Row}
    (hr : row.Indexed) : (Context.ofGroup row group.rows).Indexed := by
  refine ⟨fun other ho => ?_, fun others ho => ?_⟩
  · cases ho
    exact hr
  · cases ho
    exact h.rows

/-- Evaluated on rows whose columns have values, the expression keeps tables uniform. -/
def Meaning.Sound (tidy : Prop) (meaning : Meaning) : Prop :=
  ∀ context : Context, context.Indexed → (meaning context).Ensures tidy fun _ => True

theorem Table.LaidOut.indexed {items : List Table} {table : Table} (h : table.LaidOut items) :
    ∀ row ∈ table.rows, row.Indexed := fun row hr => (h.rows row hr).indexed

theorem Table.Uniform.indexed {table : Table} (h : table.Uniform) :
    ∀ row ∈ table.rows, row.Indexed := (Table.uniform_iff.mp h).indexed

/-! ## Clauses -/

namespace Clause

variable {meanings : List Meaning}

theorem condition_ensures {meaning : Meaning} (h : meaning.Sound tidy) {context : Context}
    (hc : context.Indexed) : (condition meaning context).Ensures tidy fun _ => True :=
  (h context hc).bind fun v _ => .ofExcept (fun _ _ => trivial) fun _ => v.clean_holds

theorem labelFor_ensures (label : Option String) :
    (labelFor env label).Ensures tidy fun _ => True := by
  cases label with
  | none => exact .freshLabel env.settings
  | some label =>
    unfold labelFor
    refine .reading (fun _ _ _ _ => trivial) fun _ scope _ => ?_
    split
    · exact clean_error id
    · exact clean_ok _

theorem bindTable_ensures (label : Option String) {table : Table} (h : table.Uniform) :
    (bindTable env label table).Ensures tidy Table.Uniform := by
  refine (labelFor_ensures label).bind fun label _ => ?_
  refine (Ensures.onScope fun scope hs => ?_).bind fun _ _ => .pure h
  have hb : (scope.innermost.bind table label).Uniform :=
    (hs.innermost.setTable table.name h).setLabel label table.name
  exact hs.replace hb

theorem boundTable_ensures (joined : Bool) (pos : Position) (name : String)
    (label : Option String) : (boundTable joined pos name label).Ensures tidy Table.Uniform := by
  refine .reading (fun scope hs table ht => ?_) fun _ scope _ => ?_
  · cases hf : scope.find? name with
    | none =>
      rw [hf] at ht
      cases ht
    | some found =>
      have hu : found.Uniform := hs.find? hf
      rw [hf] at ht
      cases joined with
      | false =>
        cases ht
        exact hu
      | true =>
        cases label with
        | none => cases ht
        | some own =>
          cases ht
          exact hu.renamed own
  · cases scope.find? name with
    | none => exact clean_error id
    | some found =>
      cases joined with
      | false => exact clean_ok _
      | true =>
        cases label with
        | none => exact clean_error id
        | some own => exact clean_ok _

theorem derivedTable_ensures {query : Eval Table} (h : query.Ensures tidy Table.Uniform)
    (pos : Position) (label : Option String) :
    (derivedTable pos label query).Ensures tidy Table.Uniform := by
  cases label with
  | none => exact .throw fun _ => id
  | some label =>
    have hfree : (Eval.reading fun scope => if (scope.innermost.table? label).isSome then
        .error (.duplicateLabel label) else .ok ()).Ensures tidy fun _ => True := by
      refine .reading (fun _ _ _ _ => trivial) fun _ scope _ => ?_
      split
      · exact clean_error id
      · exact clean_ok _
    exact hfree.bind fun _ _ => h.bind fun table ht => .pure (ht.renamed label)

theorem joinRows_ensures {meaning : Row → Eval Bool} (outer : Bool) {right : Table}
    {rows : List Row}
    (hc : ∀ l ∈ rows, ∀ r ∈ right.rows, (meaning (l.join r)).Ensures tidy fun _ => True) :
    (Table.joinRows outer right meaning rows).Ensures tidy fun joined => ∀ row ∈ joined,
      ∃ l ∈ rows, ∃ r, (r ∈ right.rows ∨ r = right.nullRow) ∧ row = l.join r := by
  suffices h : (Table.joinRows outer right meaning rows).Ensures tidy fun _ => True from
    h.refine fun _ _ _ _ hr _ => Table.joinRows_returns hr
  induction rows with
  | nil => exact .pure trivial
  | cons l rest ih =>
    have hrest := ih fun l' hl => hc l' (List.mem_cons_of_mem _ hl)
    have hfound : (keepM meaning (right.rows.map l.join)).Ensures tidy fun kept =>
        ∀ row ∈ kept, row ∈ right.rows.map l.join := by
      refine .keepM fun row hrow => ?_
      obtain ⟨r, hr, rfl⟩ := List.mem_map.mp hrow
      exact hc l List.mem_cons_self r hr
    exact hfound.bind fun _ _ => hrest.bind fun _ _ => .pure trivial

/-- A join lays the rows of the right table out behind those on the left. -/
theorem join_ensures {right : Eval Table} {on : Option Meaning} {left : Table}
    {items : List Table} {P : Table → Prop} (pos : Position) (kind : JoinKind)
    (hl : left.LaidOut items) (hr : right.Ensures tidy P) (hP : ∀ item, P item → item.Uniform)
    (ho : ∀ meaning, on = some meaning → meaning.Sound tidy) :
    (join pos kind right on left).Ensures tidy fun table =>
      ∃ item, P item ∧ table.LaidOut (items ++ [item]) := by
  unfold join
  split
  · exact .throw fun _ => id
  · refine hr.bind fun item hp => ?_
    have hu := hP item hp
    dsimp only
    split
    · have hrows : ∀ row ∈ (left.crossJoin item (left.joinedName item kind)).rows,
          row.LaidOut (items ++ [item]) := by
        intro row hrow
        obtain ⟨l, hlm, r, hrm, rfl⟩ := Table.mem_crossJoin hrow
        exact hl.join hu hlm (.inl hrm)
      exact .pure ⟨item, hp, hl.joinedWith hrows⟩
    · cases on with
      | none => exact .throw fun _ => id
      | some meaning =>
        have hcondition : ∀ l ∈ left.rows, ∀ r ∈ item.rows,
            ((fun row => condition meaning (.ofRow row)) (l.join r)).Ensures tidy
              fun _ => True := by
          intro l hlm r hrm
          have hlaid := hl.join hu hlm (.inl hrm)
          exact condition_ensures (ho meaning rfl) (Context.indexed_ofRow hlaid.indexed)
        refine (joinRows_ensures (kind == .left) hcondition).bind fun joined hj => ?_
        refine .pure ⟨item, hp, hl.joinedWith fun row hrow => ?_⟩
        obtain ⟨l, hlm, r, hrm, rfl⟩ := hj row hrow
        exact hl.join hu hlm hrm

theorem filter_ensures {filter : Option Meaning} {table : Table} {items : List Table}
    (ht : table.LaidOut items) (h : ∀ meaning, filter = some meaning → meaning.Sound tidy) :
    (Clause.filter filter table).Ensures tidy (Table.LaidOut items) := by
  cases filter with
  | none => exact .pure ht
  | some meaning =>
    have hkept : (keepM (fun row => condition meaning (.ofRow row)) table.rows).Ensures tidy
        fun kept => ∀ row ∈ kept, row ∈ table.rows := by
      refine .keepM fun row hr => ?_
      exact condition_ensures (h meaning rfl) (Context.indexed_ofRow (ht.indexed row hr))
    exact hkept.bind fun kept hk => .pure (ht.withRows hk)

theorem rowValues_ensures (h : ∀ meaning ∈ meanings, meaning.Sound tidy) {context : Context}
    (hc : context.Indexed) :
    (rowValues meanings context).Ensures tidy fun values => values.length = meanings.length :=
  Ensures.length_mapM fun meaning hm => h meaning hm context hc

/-- As many values as fields make a row of them. -/
theorem clean_ofValues (name : String) {fields : List String} {values : List Value}
    (h : values.length = fields.length) : ∃ row, Row.ofValues name fields values = .ok row := by
  unfold Row.ofValues Row.ofColumns
  rw [if_pos (by simp [h])]
  exact ⟨_, rfl⟩

theorem ofValues_ensures (name : String) {fields : List String} {values : List Value}
    (h : values.length = fields.length) :
    (ofExcept (Row.ofValues name fields values)).Ensures tidy fun row =>
      row.columns = Column.ofFields name fields ∧ row.values.length = fields.length := by
  refine .ofExcept (fun row hr => ?_) fun _ => ?_
  · obtain ⟨hc, hv, hl⟩ := Row.ofValues_ok hr
    exact ⟨hc, by rw [hv, hl]⟩
  · obtain ⟨row, hr⟩ := clean_ofValues name h
    rw [hr]
    exact clean_ok row

variable {fields : List String}

theorem single_ensures (hf : fields.length = meanings.length)
    (h : ∀ meaning ∈ meanings, meaning.Sound tidy) :
    (single fields meanings).Ensures tidy Table.Uniform := by
  refine (rowValues_ensures h Context.indexed_none).bind fun values hv => ?_
  refine (ofValues_ensures _ (hv.trans hf.symm)).bind fun row hr => .pure ?_
  intro other ho
  cases List.mem_singleton.mp ho
  exact hr

/-- A table with these rows is uniform. -/
theorem rows_ensures {α : Type} {name : String} {act : α → Eval Row} {as : List α}
    (h : ∀ a ∈ as, (act a).Ensures tidy fun row =>
      row.columns = Column.ofFields name fields ∧ row.values.length = fields.length) :
    (do return ⟨name, fields, ← as.mapM act⟩ : Eval Table).Ensures tidy Table.Uniform :=
  (Ensures.mapM h).bind fun _ hrows => .pure hrows.2

theorem project_ensures (hf : fields.length = meanings.length)
    (h : ∀ meaning ∈ meanings, meaning.Sound tidy) {table : Table}
    (ht : ∀ row ∈ table.rows, row.Indexed) :
    (project fields meanings table).Ensures tidy Table.Uniform := by
  have hrows : (Table.project table.name fields table.rows fun row =>
      rowValues meanings (.ofRow row)).Ensures tidy Table.Uniform := by
    refine rows_ensures fun row hr => ?_
    refine (rowValues_ensures h (Context.indexed_ofRow (ht row hr))).bind fun values hv => ?_
    have hrow : (ofExcept (Row.ofValues table.name fields values)).Ensures tidy _ :=
      ofValues_ensures table.name (hv.trans hf.symm)
    cases hmade : Row.ofValues table.name fields values with
    | ok made =>
      rw [hmade] at hrow
      exact hrow
    | error e =>
      rw [hmade] at hrow
      exact hrow
  refine hrows.bind fun projected hp => ?_
  exact (Ensures.onScope fun scope hs => hs.rebind hp).bind fun _ _ => .pure hp

theorem clean_groupColumns (keys : List Expr) : Clean (groupColumns keys) := by
  refine Clean.mapM fun key _ => ?_
  split
  · exact clean_ok _
  · exact clean_error id

theorem clean_checkGroupable (functions : Registry) (columns : List SelectColumn) :
    Clean (checkGroupable functions columns) := by
  unfold checkGroupable
  split
  · exact clean_ok _
  · exact clean_error id


theorem groups_ensures (functions : Registry) (keys : List Expr) (columns : List SelectColumn)
    {table : Table} (ht : ∀ row ∈ table.rows, row.Indexed) :
    (groups functions keys columns table).Ensures tidy fun groups =>
      ∀ group ∈ groups, group.Indexed := by
  refine .reading (fun scope _ groups hg group hm => ?_) fun _ scope _ => ?_
  · obtain ⟨refs, _, hg⟩ := exists_ok_of_bind hg
    obtain ⟨_, _, hg⟩ := exists_ok_of_bind hg
    have hgrouping := groupRows_ok hg
    exact ⟨hgrouping.indexed_keyRow hm, fun row hr => ht row (hgrouping.mem_rows hm hr)⟩
  · refine (clean_groupColumns keys).bind fun refs _ => ?_
    refine (clean_checkGroupable functions columns).bind fun _ _ => ?_
    refine clean_groupRows table.name fun row hr => Clean.mapM fun ref _ => ?_
    exact scope.clean_resolve ref (ht row hr)

theorem groupTable_ensures (name : String) (hf : fields.length = meanings.length)
    (h : ∀ meaning ∈ meanings, meaning.Sound tidy) {groups : List Group}
    (hg : ∀ group ∈ groups, group.Indexed) :
    (groupTable name fields meanings groups).Ensures tidy Table.Uniform := by
  refine rows_ensures fun group hm => ?_
  have hcontext := (hg group hm).context (hg group hm).keyRow
  have hungrouped : ∀ e : QueryError, ¬e.Internal → ¬(ungrouped e).Internal := by
    intro e he
    cases e with
    | columnNotFound column => exact id
    | _ => exact he
  refine (Ensures.length_mapM fun meaning hm => ?_).bind fun values hv => ?_
  · exact (h meaning hm _ hcontext).mapError hungrouped
  · exact ofValues_ensures _ (hv.trans hf.symm)

theorem having_ensures {meaning : Option Meaning} {groups : List Group} {table : Table}
    (h : ∀ condition, meaning = some condition → condition.Sound tidy) (ht : table.Uniform)
    (hg : ∀ group ∈ groups, group.Indexed) :
    (having meaning groups table).Ensures tidy Table.Uniform := by
  cases meaning with
  | none => exact (Ensures.onScope fun scope hs => hs.rebind ht).bind fun _ _ => .pure ht
  | some meaning =>
    have hkept : (keepM (fun pair : Row × Group =>
        condition meaning (.ofGroup pair.1 pair.2.rows)) (table.rows.zip groups)).Ensures tidy
          fun kept => ∀ pair ∈ kept, pair ∈ table.rows.zip groups := by
      refine .keepM fun pair hp => ?_
      obtain ⟨hr, hm⟩ := List.of_mem_zip hp
      exact condition_ensures (h meaning rfl) ((hg pair.2 hm).context (ht.indexed pair.1 hr))
    refine (hkept.overProjection ht).bind fun kept hk => ?_
    have hfiltered : (table.withRows (kept.map (·.1))).Uniform := by
      refine ht.withRows fun row hr => ?_
      obtain ⟨pair, hp, rfl⟩ := List.mem_map.mp hr
      exact (List.of_mem_zip (hk pair hp)).1
    exact (Ensures.onScope fun scope hs => hs.rebind hfiltered).bind fun _ _ => .pure hfiltered

theorem group_ensures {columns : List SelectColumn} {having : Option Meaning} (keys : List Expr)
    (hf : columns.length = meanings.length) (h : ∀ meaning ∈ meanings, meaning.Sound tidy)
    (hh : ∀ condition, having = some condition → condition.Sound tidy) {table : Table}
    (ht : ∀ row ∈ table.rows, row.Indexed) :
    (group env keys columns meanings having table).Ensures tidy Table.Uniform := by
  have hfields : (outputNames columns).length = meanings.length := by simpa [outputNames] using hf
  refine (groups_ensures env.functions keys columns ht).bind fun groups hg => ?_
  refine (groupTable_ensures _ hfields h hg).bind fun projected hp => ?_
  exact having_ensures hh hp hg

/-- Sorting moves rows around. -/
theorem left_of_sort {table sorted : Table} {directions : List Direction}
    {key : Row → Except QueryError (List Value)} (h : table.sort directions key = .ok sorted) :
    table.LeftWith sorted := by
  obtain ⟨keys, _, h⟩ := exists_ok_of_bind h
  split at h
  · cases h
  · cases h
    refine ⟨_, rfl, fun row hr => ?_⟩
    obtain ⟨pair, hp, rfl⟩ := List.mem_map.mp hr
    exact (List.of_mem_zip (List.mem_mergeSort.mp hp)).2

theorem order_ensures {keys : List OrderKey} (hk : keys ≠ []) {table : Table}
    (ht : table.Uniform) : (order keys table).Ensures tidy Table.Uniform := by
  unfold order
  rw [if_neg (by simpa using hk)]
  refine .reading (fun scope _ sorted hs => ?_) fun _ scope _ => ?_
  · obtain ⟨rows, rfl, hrows⟩ := left_of_sort hs
    exact ht.withRows hrows
  · refine (Clean.mapM fun row hr => Clean.mapM fun key _ => ?_).bind fun keys _ => ?_
    · exact (scope.clean_resolve key.column (ht.indexed row hr)).map _
    · split
      · exact clean_error id
      · exact clean_ok _

theorem rowCount_ensures {meaning : Meaning} (clause : SliceClause) (h : meaning.Sound tidy) :
    (rowCount clause meaning).Ensures tidy fun _ => True := by
  have hreword : ∀ e : QueryError, ¬e.Internal → ¬(QueryError.slice clause e).Internal :=
    fun e he => he
  refine ((h .none Context.indexed_none).mapError hreword).bind fun v _ => ?_
  split
  · exact .pure trivial
  · exact .throw fun _ => id

theorem offset_ensures {meaning : Option Meaning} {table : Table} (ht : table.Uniform)
    (h : ∀ count, meaning = some count → count.Sound tidy) :
    (offset meaning table).Ensures tidy Table.Uniform := by
  cases meaning with
  | none => exact .pure ht
  | some meaning =>
    refine (rowCount_ensures .offset (h meaning rfl)).bind fun n _ => .pure ?_
    exact ht.withRows fun row hr => List.mem_of_mem_drop hr

theorem limit_ensures {meaning : Option Meaning} {table : Table} (ht : table.Uniform)
    (h : ∀ count, meaning = some count → count.Sound tidy) :
    (limit meaning table).Ensures tidy Table.Uniform := by
  cases meaning with
  | none => exact .pure ht
  | some meaning =>
    refine (rowCount_ensures .limit (h meaning rfl)).bind fun n _ => .pure ?_
    exact ht.withRows fun row hr => List.mem_of_mem_take hr

end Clause

/-! ## Expressions -/

namespace Meaning

theorem connective_sound (op : Connective) {left right : Meaning} (hl : left.Sound tidy)
    (hr : right.Sound tidy) : (connective op left right).Sound tidy := by
  intro context hc
  refine (hl context hc).bind fun v _ => ?_
  refine (Ensures.ofExcept (fun _ _ => trivial) fun _ => v.clean_truth).bind fun a _ => ?_
  split
  · exact .pure trivial
  · refine (hr context hc).bind fun w _ => ?_
    exact (Ensures.ofExcept (fun _ _ => trivial) fun _ => w.clean_truth).bind fun b _ =>
      .pure trivial

theorem firstHolding_sound {otherwise : Option Meaning}
    (ho : ∀ meaning, otherwise = some meaning → meaning.Sound tidy) :
    ∀ {conditions results : List Meaning}, (∀ meaning ∈ conditions, meaning.Sound tidy) →
      (∀ meaning ∈ results, meaning.Sound tidy) →
      (firstHolding otherwise conditions results).Sound tidy
  | condition :: conditions, result :: results, hc, hr => by
    intro context hi
    refine (Clause.condition_ensures (hc condition List.mem_cons_self) hi).bind fun holds _ => ?_
    split
    · exact hr result List.mem_cons_self context hi
    · exact firstHolding_sound ho (fun m hm => hc m (List.mem_cons_of_mem _ hm))
        (fun m hm => hr m (List.mem_cons_of_mem _ hm)) context hi
  | [], _, _, _ | _ :: _, [], _, _ => by
    intro context hi
    cases otherwise with
    | none => exact .pure trivial
    | some meaning => exact ho meaning rfl context hi

theorem checkSingleColumn_ensures (table : Table) :
    (ofExcept table.checkSingleColumn).Ensures tidy fun _ => True := by
  refine .ofExcept (fun _ _ => trivial) fun _ => ?_
  unfold Table.checkSingleColumn
  split
  · exact clean_ok _
  · exact clean_error id

theorem scalar_ensures {query : Eval Table} (h : query.Ensures tidy Table.Uniform) :
    (scalar query).Ensures tidy fun _ => True := by
  refine h.bind fun table _ => (checkSingleColumn_ensures table).bind fun _ _ => ?_
  split
  · exact .pure trivial
  · exact .pure trivial
  · exact .throw fun _ => id

theorem column_ensures {query : Eval Table} (h : query.Ensures tidy Table.Uniform) :
    (column query).Ensures tidy fun _ => True :=
  h.bind fun table _ => (checkSingleColumn_ensures table).bind fun _ _ => .pure trivial

theorem aggregate_sound {args : List Meaning} (hf : tidy → env.functions.Faultless)
    (name : String) (star : Bool) (h : ∀ arg ∈ args, arg.Sound tidy) :
    (aggregate env name args star).Sound tidy := by
  intro context hc
  unfold aggregate
  split
  · exact .throw fun _ => id
  · next rows hg =>
    have hcheck : (ofExcept (env.functions.checkAggregate name args.length star)).Ensures tidy
        fun function => tidy → ∀ input, Clean (function.apply input) :=
      .ofExcept (fun _ hc ht => (hf ht).checkAggregate hc) fun _ =>
        env.functions.clean_checkAggregate _ _ _
    refine hcheck.bind fun function hclean => ?_
    have happly : ∀ input, (ofExcept (function.apply input)).Ensures tidy fun _ => True :=
      fun input => .ofExcept (fun _ _ => trivial) fun ht => hclean ht input
    split
    · exact happly _
    · next arg ha =>
      have hm : arg ∈ args := by
        cases star with
        | true => simp at ha
        | false => exact List.mem_of_mem_head? ha
      have hvalues : (rows.mapM fun row => arg (.ofRow row)).Ensures tidy
          fun values => values.length = rows.length :=
        .length_mapM fun row hr => h arg hm _ (Context.indexed_ofRow (hc.group rows hg row hr))
      exact hvalues.inGroupSource.bind fun values _ => happly _

theorem call_sound {args : List Meaning} (hf : tidy → env.functions.Faultless) (pos : Position)
    (name : Option String) (star : Bool) (h : ∀ arg ∈ args, arg.Sound tidy) :
    (call env pos name args star).Sound tidy := by
  intro context hc
  cases name with
  | none => exact .throw fun _ => id
  | some name =>
    simp only [call]
    split
    · exact aggregate_sound hf name star h context hc
    · refine (Ensures.length_mapM fun arg hm => h arg hm context hc).bind fun values _ => ?_
      exact .ofExcept (fun _ _ => trivial) fun ht => (hf ht).clean_callScalar name values

end Meaning

theorem items_ensures {context : Context} : ∀ {items : List Expr},
    (∀ item ∈ items, (evaluate env item context).Ensures tidy fun _ => True) →
    (∀ query, .subquery query ∈ items → (evaluateSelect env query).Ensures tidy Table.Uniform) →
    (evaluateItems env items context).Ensures tidy fun _ => True
  | [], _, _ => .pure trivial
  | item :: rest, he, hq => by
    have hrest := items_ensures (fun i hi => he i (List.mem_cons_of_mem _ hi))
      (fun q hi => hq q (List.mem_cons_of_mem _ hi))
    have hitem := he item List.mem_cons_self
    -- a subquery among the items is evaluated as a column of values and not as one value
    cases item with
    | subquery query =>
      have hcolumn := Meaning.column_ensures (hq query List.mem_cons_self)
      exact hcolumn.bind fun _ _ => hrest.bind fun _ _ => .pure trivial
    | _ => exact hitem.bind fun _ _ => hrest.bind fun _ _ => .pure trivial

end TableQuery
