import Mathlib.Data.List.Nodup
import TableQuery.Proofs.Evaluation.Pipeline
import TableQuery.Proofs.Evaluation.Sources

/-! # The tables that a query joins

A query reads one table for its from item and one for each join. The label of a join has to be free
in all frames, and the joined table takes it for its name; so the tables have different names, and
the columns of a joined row that belong to one name come from one of them. -/

namespace TableQuery

open Eval

/-- Called in the state `s`, a query reads some tables for its from item and some joins. Joined they
make one table, and there is a state then. -/
inductive TableRef.Joining (env : Environment) (ref : TableRef) (s : State) :
    List Join → List Table → Table → State → Prop where
  | source {first : Table} {u : State}
    (h : Returns (evaluateTableRef env false ref) s.opened first u) :
    Joining env ref s [] [first] first u
  | join {joins : List Join} {items : List Table} {join : Join} {left right table : Table}
    {u v w : State} (h : Joining env ref s joins items left u)
    (hr : Returns (evaluateTableRef env true join.table) u right v)
    (hj : Returns (evaluateJoin env join left) u table w) :
    Joining env ref s (joins ++ [join]) (items ++ [right]) table w

/-- A row of the first table, and for each of the others a row of it or the one that stands for a
missing row. -/
inductive Row.SideBySide : List Table → Row → Prop where
  | one {item : Table} {row : Row} (h : row ∈ item.rows) : SideBySide [item] row
  | join {items : List Table} {item : Table} {left right : Row} (h : SideBySide items left)
    (hr : right ∈ item.rows ∨ right = item.nullRow) : SideBySide (items ++ [item]) (left.join right)

/-- All columns belong to the table. -/
def Table.OwnsColumns (table : Table) : Prop := ∀ row ∈ table.rows, row.From (· = table.name)

/-- In one row of the table two columns are called by the field. -/
def Table.Repeats (table : Table) (field : String) : Prop :=
  ∃ row, (row ∈ table.rows ∨ row = table.nullRow) ∧
    (2 ≤ (row.columns.filter (·.label == field)).length ∨
      2 ≤ (row.columns.filter (·.name == field)).length)

variable {env : Environment} {ref : TableRef} {s u v : State} {joins : List Join}
  {items : List Table} {left right table : Table}

/-! ## Reading -/

theorem TableRef.joining_foldlM : ∀ {rest : List Join} {joins : List Join} {items : List Table}
    {left table : Table} {u v : State}, ref.Joining env s joins items left u →
    Returns ((rest.map (evaluateJoin env)).foldlM (fun left join => join left) left) u table v →
    ∃ more, ref.Joining env s (joins ++ rest) (items ++ more) table v
  | [], joins, items, left, table, u, v, h, hr => by
    obtain ⟨rfl, rfl⟩ := Returns.pure hr
    exact ⟨[], by simpa using h⟩
  | join :: rest, joins, items, left, table, u, v, h, hr => by
    rw [List.map_cons, List.foldlM_cons] at hr
    obtain ⟨next, w, hn, hr⟩ := Returns.bind hr
    obtain ⟨right, _, hright, _, _⟩ := evaluateJoin_returns hn
    obtain ⟨more, hmore⟩ := joining_foldlM (h.join hright hn) hr
    exact ⟨right :: more, by simpa using hmore⟩

/-- What a query has joined, it has read table by table. -/
theorem TableRef.exists_joining
    (h : Returns (Pipeline.joined (evaluateTableRef env false ref) (joins.map (evaluateJoin env)))
      s.opened table u) : ∃ items, ref.Joining env s joins items table u := by
  obtain ⟨first, v, hf, h⟩ := Returns.bind h
  obtain ⟨more, hmore⟩ := TableRef.joining_foldlM (.source hf) h
  exact ⟨_, hmore⟩

/-! ## Distinct names -/

/-- A join reads a table that has a name which was free. -/
theorem joined_tableRef_returns {ref : TableRef}
    (h : Returns (evaluateTableRef env true ref) u right v) :
    u.scope.innermost.tableName? right.name = none ∧
      v.scope.innermost = u.scope.innermost.bind right right.name ∧ right.OwnsColumns := by
  obtain ⟨label, hfree, hscope, _, htable⟩ := evaluateTableRef_returns h
  obtain ⟨rfl, hrows⟩ := htable.resolve_left fun h => absurd h.1 (by decide)
  refine ⟨((u.scope.tableName?_eq_none).mp hfree).1, ?_, hrows⟩
  rw [hscope]
  rfl

namespace TableRef.Joining

/-- Each table is labelled by its own name in the frame of the query. -/
theorem labelled (h : ref.Joining env s joins items table u) :
    ∀ item ∈ items, u.scope.innermost.tableName? item.name = some item.name := by
  induction h with
  | source h =>
    obtain ⟨label, _, hscope, _⟩ := evaluateTableRef_returns h
    refine List.forall_mem_singleton.mpr ?_
    rw [hscope]
    exact (Frame.tableName?_bind ..).trans (if_pos (.inr rfl))
  | @join joins items join left right table u v w h hr hj ih =>
    obtain ⟨right', v', hr', hrestored, _⟩ := evaluateJoin_returns hj
    obtain ⟨rfl, rfl⟩ := hr.unique hr'
    obtain ⟨hfree, hframe, _⟩ := joined_tableRef_returns hr
    rw [hrestored.scope, hframe]
    intro item hm
    rw [Frame.tableName?_bind]
    rcases List.mem_append.mp hm with hm | hm
    · have hne : item.name ≠ right.name := fun he => by
        have hitem := ih item hm
        rw [he, hfree] at hitem
        cases hitem
      rw [if_neg (not_or.mpr ⟨hne, hne⟩)]
      exact ih item hm
    · cases List.mem_singleton.mp hm
      exact if_pos (.inr rfl)

/-- The table that is joined next has another name than those before. -/
theorem next_distinct (h : ref.Joining env s joins items left u) {next : TableRef}
    (hr : Returns (evaluateTableRef env true next) u right v) :
    ∀ item ∈ items, item.name ≠ right.name := by
  intro item hm he
  have hlabel := h.labelled item hm
  rw [he, (joined_tableRef_returns hr).1] at hlabel
  cases hlabel

theorem nodup_append {items : List Table} (h : (items.map (·.name)).Nodup)
    (hne : ∀ item ∈ items, item.name ≠ right.name) :
    ((items ++ [right]).map (·.name)).Nodup := by
  rw [List.map_append, List.nodup_append]
  refine ⟨h, List.nodup_singleton _, fun name hn other ho => ?_⟩
  obtain ⟨item, hm, rfl⟩ := List.mem_map.mp hn
  cases List.mem_singleton.mp ho
  exact hne item hm

theorem nodup (h : ref.Joining env s joins items table u) : (items.map (·.name)).Nodup := by
  induction h with
  | source h => exact List.nodup_singleton _
  | join h hr hj ih => exact nodup_append ih (h.next_distinct hr)

/-! ## Joined rows -/

/-- Joined tables own their columns, whatever the table of the from item does. -/
theorem ownsColumns (h : ref.Joining env s joins items table u)
    (hfirst : ∀ first, items.head? = some first → first.OwnsColumns) :
    ∀ item ∈ items, item.OwnsColumns := by
  induction h with
  | source h => exact List.forall_mem_singleton.mpr (hfirst _ rfl)
  | @join joins items join left right table u v w h hr hj ih =>
    have hbefore := ih fun first hf => hfirst first (by simp [List.head?_append, hf])
    exact List.forall_mem_append.mpr
      ⟨hbefore, List.forall_mem_singleton.mpr (joined_tableRef_returns hr).2.2⟩

theorem sideBySide (h : ref.Joining env s joins items table u) :
    ∀ row ∈ table.rows, row.SideBySide items := by
  induction h with
  | source h => exact fun row hrow => .one hrow
  | join h hr hj ih =>
    obtain ⟨right, v, hr', _, hrows⟩ := evaluateJoin_returns hj
    obtain ⟨rfl, rfl⟩ := hr.unique hr'
    intro row hrow
    obtain ⟨l, hl, r, hright, rfl⟩ := hrows row hrow
    exact (ih l hl).join hright

end TableRef.Joining

/-! ## Ambiguous references -/

/-- A row of the table and the one that stands for a missing row have columns of the table only. -/
theorem Table.OwnsColumns.row {item : Table} (h : item.OwnsColumns) {row : Row}
    (hr : row ∈ item.rows ∨ row = item.nullRow) : row.From (· = item.name) := by
  rcases hr with hr | rfl
  · exact h row hr
  · exact Row.from_nulls (P := (· = item.name)) rfl item.fields

namespace Row

/-- The columns of a row that belong to a table and have a property. -/
def columnsOf (row : Row) (name : String) (property : Column → Bool) : List Column :=
  row.columns.filter fun c => c.table == name && property c

theorem columnsOf_eq_nil {row : Row} {P : String → Prop} (h : row.From P) {name : String}
    (hn : ¬P name) (property : Column → Bool) : row.columnsOf name property = [] := by
  refine List.filter_eq_nil_iff.mpr fun column hc hp => hn ?_
  have ht : column.table = name := by simpa using (Bool.and_eq_true_iff.mp hp).1
  exact ht ▸ h column hc

theorem length_columnsOf_le (row : Row) (name : String) (property : Column → Bool) :
    (row.columnsOf name property).length ≤ (row.columns.filter property).length := by
  unfold columnsOf
  rw [← List.filter_filter]
  exact List.length_filter_le _ _

/-- A joined row has the columns of both rows that belong to a table. -/
theorem length_columnsOf_join (left right : Row) (name : String) {property : Column → Bool}
    (hp : ∀ column n, property (column.atIndex n) = property column) :
    ((left.join right).columnsOf name property).length =
      (left.columnsOf name property).length + (right.columnsOf name property).length := by
  unfold columnsOf join
  rw [List.filter_append, List.length_append, List.filter_map, List.length_map]
  congr 3
  funext column
  exact congrArg (column.table == name && ·) (hp column _)

theorem SideBySide.from_names {items : List Table} {row : Row} (h : row.SideBySide items)
    (howns : ∀ item ∈ items, item.OwnsColumns) : row.From (· ∈ items.map (·.name)) := by
  induction h with
  | one h =>
    have hrow := howns _ List.mem_cons_self _ h
    exact hrow.mono fun name hn => by simp [hn]
  | @join items item left right h hr ih =>
    have hleft := ih fun i hi => howns i (List.mem_append_left _ hi)
    refine (hleft.mono fun name hn => by simp [List.mem_map.mp hn]).join ?_
    exact ((howns item (by simp)).row hr).mono fun name hn => by simp [hn]

/-- Several columns of one table in a joined row come from one row of that table. -/
theorem SideBySide.repeated {items : List Table} {row : Row} (h : row.SideBySide items)
    (howns : ∀ item ∈ items, item.OwnsColumns) (hd : (items.map (·.name)).Nodup) {name : String}
    {property : Column → Bool} (hp : ∀ column n, property (column.atIndex n) = property column)
    (htwo : 2 ≤ (row.columnsOf name property).length) :
    ∃ item ∈ items, ∃ own, (own ∈ item.rows ∨ own = item.nullRow) ∧
      2 ≤ (own.columns.filter property).length := by
  induction h with
  | @one item row h =>
    exact ⟨item, List.mem_cons_self, row, .inl h,
      Nat.le_trans htwo (row.length_columnsOf_le name property)⟩
  | @join items item left right h hr ih =>
    have hbefore : ∀ i ∈ items, i.OwnsColumns := fun i hi => howns i (List.mem_append_left _ hi)
    rw [length_columnsOf_join left right name hp] at htwo
    rw [List.map_append, List.nodup_append] at hd
    by_cases hn : name = item.name
    · -- the rows before have no column of this table
      have hnone : name ∉ items.map (·.name) := fun hm =>
        hd.2.2 name hm item.name List.mem_cons_self hn
      rw [columnsOf_eq_nil (h.from_names hbefore) hnone property, List.length_nil,
        Nat.zero_add] at htwo
      exact ⟨item, by simp, right, hr, Nat.le_trans htwo (right.length_columnsOf_le name property)⟩
    · have hitem := (howns item (by simp)).row hr
      rw [columnsOf_eq_nil hitem hn property, List.length_nil, Nat.add_zero] at htwo
      obtain ⟨found, hf, own⟩ := ih hbefore hd.1 htwo
      exact ⟨found, List.mem_append_left _ hf, own⟩

theorem findColumn_ambiguous {row : Row} {name table shown : String} {property : Column → Bool}
    (h : row.findColumn name table property = .error (.ambiguousColumn shown)) :
    2 ≤ (row.columnsOf table property).length := by
  unfold findColumn at h
  unfold columnsOf
  split at h
  · cases h
  · cases h
  · next hf =>
    rw [hf]
    simp

theorem column_ambiguous {row : Row} {name table shown : String}
    (h : row.column name table = .error (.ambiguousColumn shown)) :
    2 ≤ (row.columnsOf table (·.label == name)).length ∨
      2 ≤ (row.columnsOf table (·.name == name)).length := by
  unfold column at h
  cases hl : row.columnByLabel name table with
  | error e =>
    rw [hl] at h
    cases h
    exact .inl (findColumn_ambiguous hl)
  | ok found =>
    rw [hl] at h
    cases found with
    | some column => cases h
    | none => exact .inr (findColumn_ambiguous h)

end Row

/-- A reference with a qualifier is ambiguous only where two columns of one table are called so. -/
theorem Scope.resolve_ambiguous {scope : Scope} {ref : ColumnRef} {row : Row} {shown : String}
    (hq : ref.table.isSome) (h : scope.resolve ref row = .error (.ambiguousColumn shown)) :
    ∃ name, 2 ≤ (row.columnsOf name (·.label == ref.name)).length ∨
      2 ≤ (row.columnsOf name (·.name == ref.name)).length := by
  obtain ⟨qualifier, hq⟩ := Option.isSome_iff_exists.mp hq
  unfold resolve at h
  cases ht : scope.tableOf ref with
  | error e =>
    rw [ht] at h
    cases h
    unfold tableOf qualified at ht
    rw [hq] at ht
    dsimp only at ht
    split at ht <;> cases ht
  | ok table =>
    rw [ht] at h
    refine ⟨table, ?_⟩
    cases hc : row.column ref.name table with
    | error e =>
      have he : (Except.error e : Except QueryError (Column × Value)) =
          .error (.ambiguousColumn shown) := by simpa [hc, Bind.bind, Except.bind] using h
      cases he
      exact Row.column_ambiguous hc
    | ok found =>
      simp only [hc, Bind.bind, Except.bind] at h
      cases found with
      | none => cases h
      | some column =>
        dsimp only at h
        split at h <;> cases h

/-- A reference with a qualifier is ambiguous on the row only if it is, by the measure given, in one
of the tables twice. -/
def Row.AmbiguousOnlyBy (twice : Table → String → Prop) (items : List Table) (row : Row) : Prop :=
  ∀ (scope : Scope) (ref : ColumnRef) (shown : String), ref.table.isSome →
    scope.resolve ref row = .error (.ambiguousColumn shown) → ∃ item ∈ items, twice item ref.name

theorem Row.AmbiguousOnlyBy.mono {twice twice' : Table → String → Prop} {items : List Table}
    {row : Row} (h : row.AmbiguousOnlyBy twice items)
    (ht : ∀ item ∈ items, ∀ field, twice item field → twice' item field) :
    row.AmbiguousOnlyBy twice' items := by
  intro scope ref shown hq ha
  obtain ⟨item, hi, htwice⟩ := h scope ref shown hq ha
  exact ⟨item, hi, ht item hi ref.name htwice⟩

/-- Over rows side by side, one row of one table has two columns that are called so. -/
theorem Row.SideBySide.ambiguousOnlyBy {items : List Table} {row : Row} (h : row.SideBySide items)
    (howns : ∀ item ∈ items, item.OwnsColumns) (hd : (items.map (·.name)).Nodup) :
    row.AmbiguousOnlyBy Table.Repeats items := by
  intro scope ref shown hq ha
  obtain ⟨name, hl | hn⟩ := Scope.resolve_ambiguous hq ha
  · obtain ⟨item, hi, own, ho, htwo⟩ := h.repeated howns hd (fun _ _ => rfl) hl
    exact ⟨item, hi, own, ho, .inl htwo⟩
  · obtain ⟨item, hi, own, ho, htwo⟩ := h.repeated howns hd (fun _ _ => rfl) hn
    exact ⟨item, hi, own, ho, .inr htwo⟩

theorem Column.length_filter_ofFields (name field : String) (fields : List String) :
    ((ofFields name fields).filter (·.label == field)).length = fields.count field := by
  conv_rhs => rw [← map_label_ofFields name fields, List.count, List.countP_map]
  exact List.countP_eq_length_filter.symm

theorem Table.Uniform.ownsColumns {table : Table} (h : table.Uniform) : table.OwnsColumns := by
  intro row hrow column hc
  rw [(h row hrow).1] at hc
  exact Row.from_ofFields (P := (· = table.name)) rfl table.fields column hc

/-- In a uniform table two columns are called alike only if two fields are. -/
theorem Table.Uniform.count_of_repeats {table : Table} (h : table.Uniform) {field : String}
    (hr : table.Repeats field) : 2 ≤ table.fields.count field := by
  obtain ⟨row, hrow, htwo⟩ := hr
  have hcolumns : row.columns = Column.ofFields table.name table.fields := by
    rcases hrow with hrow | rfl
    · exact (h row hrow).1
    · rfl
  rw [hcolumns] at htwo
  rcases htwo with htwo | htwo
  · rwa [Column.length_filter_ofFields] at htwo
  · -- visible and own names are the same in these columns
    rw [List.filter_congr (q := (·.label == field))] at htwo
    · rwa [Column.length_filter_ofFields] at htwo
    · intro column hc
      obtain ⟨i, hi, rfl⟩ := List.mem_mapIdx.mp hc
      rfl

/-! ## From items and joins of a query -/

/-- The tables that a query, called in the state `s`, reads for its from item and its joins have
different names. -/
structure Select.DistinctItems (env : Environment) (query : Select) (s : State) : Prop where
  /-- What has been joined has been read table by table. -/
  read : ∀ {ref : TableRef} {joins rest : List Join} {table : Table} {u : State},
    query.source = some ref → query.joins = joins ++ rest →
    Returns (Pipeline.joined (evaluateTableRef env false ref) (joins.map (evaluateJoin env)))
      s.opened table u → ∃ items, ref.Joining env s joins items table u
  names : ∀ {ref : TableRef} {joins rest : List Join} {items : List Table} {table : Table}
    {u : State}, query.source = some ref → query.joins = joins ++ rest →
    ref.Joining env s joins items table u → (items.map (·.name)).Nodup
  /-- The next table has another name, whatever comes of its join. -/
  next : ∀ {ref : TableRef} {joins rest : List Join} {join : Join} {items : List Table}
    {left right : Table} {u v : State}, query.source = some ref →
    query.joins = joins ++ join :: rest → ref.Joining env s joins items left u →
    Returns (evaluateTableRef env true join.table) u right v →
    ((items ++ [right]).map (·.name)).Nodup

/-- Where the first of the tables has a property, references with a qualifier are ambiguous on the
joined rows of the query only if they are in one of the tables twice. -/
structure Select.AmbiguousOnlyBy (env : Environment) (query : Select) (s : State)
    (first : Table → Prop) (twice : Table → String → Prop) : Prop where
  joined : ∀ {ref : TableRef} {joins rest : List Join} {items : List Table} {table : Table}
    {u : State}, query.source = some ref → query.joins = joins ++ rest →
    ref.Joining env s joins items table u → (∀ item, items.head? = some item → first item) →
    ∀ row ∈ table.rows, row.AmbiguousOnlyBy twice items
  /-- The same for the rows on which the condition of the next join is evaluated. -/
  on : ∀ {ref : TableRef} {joins rest : List Join} {join : Join} {items : List Table}
    {left right : Table} {u v : State}, query.source = some ref →
    query.joins = joins ++ join :: rest → ref.Joining env s joins items left u →
    Returns (evaluateTableRef env true join.table) u right v →
    (∀ item, items.head? = some item → first item) →
    ∀ l ∈ left.rows, ∀ r ∈ right.rows, (l.join r).AmbiguousOnlyBy twice (items ++ [right])

namespace Select

theorem distinctItems (query : Select) (env : Environment) (s : State) :
    query.DistinctItems env s where
  read _ _ h := TableRef.exists_joining h
  names _ _ h := h.nodup
  next _ _ h hr := TableRef.Joining.nodup_append h.nodup (h.next_distinct hr)

/-- It is enough that the columns of the first table are its own. -/
theorem ambiguousOnlyBy_repeats (query : Select) (env : Environment) (s : State) :
    query.AmbiguousOnlyBy env s Table.OwnsColumns Table.Repeats where
  joined _ _ h hfirst row hrow :=
    (h.sideBySide row hrow).ambiguousOnlyBy (h.ownsColumns hfirst) h.nodup
  on _ _ h hr hfirst l hl r hrow := by
    have howns := List.forall_mem_append.mpr ⟨h.ownsColumns hfirst,
      List.forall_mem_singleton.mpr (joined_tableRef_returns hr).2.2⟩
    exact ((h.sideBySide l hl).join (.inl hrow)).ambiguousOnlyBy howns
      (TableRef.Joining.nodup_append h.nodup (h.next_distinct hr))

end Select

/-- Where all tables are uniform, so are those that a query reads. -/
theorem TableRef.Joining.uniform {query : Select} (h : ref.Joining env s joins items table u)
    (hsource : query.source = some ref) (hjoins : ∀ join ∈ joins, join ∈ query.joins)
    (hs : s.Uniform) :
    (∀ item ∈ items, item.Uniform) ∧ table.Joins env ref joins ∧ u.Uniform := by
  have hparts := query.uniformParts env
  induction h with
  | source h =>
    have href := evaluateTableRef_ensures false (hparts.source ref hsource)
    have hfirst := href.value _ _ _ hs.opened h
    exact ⟨List.forall_mem_singleton.mpr hfirst.uniform,
      ⟨_, .source hfirst, Table.uniform_iff.mp hfirst.uniform⟩, href.after hs.opened h⟩
  | @join joins items join left right table u v w h hr hj ih =>
    obtain ⟨hitems, hleft, hu⟩ := ih fun j hm => hjoins j (List.mem_append_left _ hm)
    have hm : join ∈ query.joins := hjoins join (List.mem_append_right _ List.mem_cons_self)
    have href := evaluateTableRef_ensures true (hparts.joins join hm)
    have hstep := Select.PartsSound.join hparts hm hleft
    refine ⟨List.forall_mem_append.mpr ⟨hitems, List.forall_mem_singleton.mpr ?_⟩,
      hstep.value _ _ _ hu hj, hstep.after hu hj⟩
    exact (href.value _ _ _ hu hr).uniform

/-- Where all tables are uniform, references with a qualifier are ambiguous only if one table has
the field twice. -/
theorem Select.ambiguousOnlyBy_count (query : Select) (env : Environment) (hs : s.Uniform) :
    query.AmbiguousOnlyBy env s (fun _ => True) fun item field => 2 ≤ item.fields.count field where
  joined {ref joins rest items table u} hsource hj h _ row hrow := by
    obtain ⟨hitems, -, -⟩ := h.uniform hsource (fun _ hm => hj ▸ List.mem_append_left _ hm) hs
    have hfirst : ∀ item : Table, items.head? = some item → item.OwnsColumns := fun item hi =>
      (hitems item (List.mem_of_head? hi)).ownsColumns
    exact ((query.ambiguousOnlyBy_repeats env s).joined hsource hj h hfirst row hrow).mono
      fun item hi _ hr => (hitems item hi).count_of_repeats hr
  on {ref joins rest join items left right u v} hsource hj h hr _ l hl r hrow := by
    obtain ⟨hitems, -, hu⟩ := h.uniform hsource (fun _ hm => hj ▸ List.mem_append_left _ hm) hs
    have hfirst : ∀ item : Table, items.head? = some item → item.OwnsColumns := fun item hi =>
      (hitems item (List.mem_of_head? hi)).ownsColumns
    have hm : join ∈ query.joins := hj ▸ List.mem_append_right _ List.mem_cons_self
    have href := evaluateTableRef_ensures true ((query.uniformParts env).joins join hm)
    have hboth := List.forall_mem_append.mpr
      ⟨hitems, List.forall_mem_singleton.mpr (href.value _ _ _ hu hr).uniform⟩
    exact ((query.ambiguousOnlyBy_repeats env s).on hsource hj h hr hfirst l hl r hrow).mono
      fun item hi _ hrepeats => (hboth item hi).count_of_repeats hrepeats

end TableQuery
