import TableQuery.Proofs.Evaluation.Stages

/-! # What from and joins bind

A query starts in an empty frame, in which its from item and its joins bind one table each. A table
read by the from item keeps its name, which may be known in the frames around the query; all other
names in the frame, those of joined tables and of subqueries and all labels, were free when they
were given. So the columns of the joined rows belong to the table that was read or to names that
mean nothing outside. -/

namespace TableQuery

open Eval

/-- The state in which a query starts. -/
def State.opened (s : State) : State := { s with scope := s.scope.push, groupSource := none }

/-! ## Table references -/

variable {env : Environment} {s t : State} {table : Table}

/-- A table reference stands for the table under a name, or for one that is renamed to its label. -/
theorem TableRef.rows_returns {joined : Bool} {ref : TableRef}
    (h : Returns (ref.rows env joined) s table t) :
    s.Restored t ∧
      ((joined = false ∧ ∃ name, ref.source = .table name ∧ s.scope.find? name = some table) ∨
        ∃ own, ∃ base : Table, ref.label = some own ∧ table = base.renamed own) := by
  obtain ⟨pos, source | query, label⟩ := ref
  · change Returns (Clause.boundTable joined pos source label) s table t at h
    unfold Clause.boundTable at h
    obtain ⟨hr, rfl⟩ := Returns.reading h
    refine ⟨.refl t, ?_⟩
    cases hf : t.scope.find? source with
    | none => rw [hf] at hr; cases hr
    | some found =>
      rw [hf] at hr
      cases joined with
      | false =>
        cases hr
        exact .inl ⟨rfl, source, rfl, hf⟩
      | true =>
        cases label with
        | none => cases hr
        | some own => cases hr; exact .inr ⟨own, found, rfl, rfl⟩
  · change Returns (Clause.derivedTable pos label (evaluateSelect env query)) s table t at h
    cases label with
    | none => exact (Returns.throw h).elim
    | some own =>
      obtain ⟨_, u, hu, h⟩ := Returns.bind h
      obtain ⟨base, v, hb, h⟩ := Returns.bind h
      obtain ⟨rfl, rfl⟩ := Returns.pure h
      have hs : u = s := (Returns.reading hu).2
      rw [hs] at hb
      exact ⟨Moves.returns (evaluateSelect_moves_restored env query) hb, .inr ⟨own, base, rfl, rfl⟩⟩

/-- A table reference binds its table under a label that was free. The table is the one under a
name, or else it and all its columns have the label for their name. -/
theorem evaluateTableRef_returns {joined : Bool} {ref : TableRef}
    (h : Returns (evaluateTableRef env joined ref) s table t) :
    ∃ label, s.scope.tableName? label = none ∧ t.scope = s.scope.bind table label ∧
      t.groupSource = s.groupSource ∧
      ((joined = false ∧ ∃ name, ref.source = .table name ∧ s.scope.find? name = some table) ∨
        table.name = label ∧ ∀ row ∈ table.rows, row.From (· = label)) := by
  rw [evaluateTableRef_eq] at h
  obtain ⟨found, u, hf, hb⟩ := Returns.bind h
  obtain ⟨hr, hfound⟩ := TableRef.rows_returns hf
  rcases Clause.bindTable_cases env found u ref.label with ⟨e, he⟩ | ⟨label, n, hfree, hown, _, he⟩
  · rw [Returns, he] at hb
    cases hb
  · rw [Returns, he] at hb
    cases hb
    rw [hr.scope] at hfree
    refine ⟨label, hfree, congrArg (Scope.bind · table label) hr.scope, hr.groupSource, ?_⟩
    rcases hfound with hname | ⟨own, base, ho, rfl⟩
    · exact .inl hname
    · right
      have hl : label = own := hown own ho
      refine ⟨hl.symm, fun row hrow => ?_⟩
      obtain ⟨first, _, rfl⟩ := List.mem_map.mp hrow
      exact Row.from_retag (P := (· = label)) hl.symm first

/-! ## The frame of a query -/

/-- The table that a query reads from under a name, as the scope around the query has it. -/
def Select.base? (query : Select) (scope : Scope) : Option Table :=
  match query.source with
  | some ⟨_, .table name, _⟩ => scope.find? name
  | _ => none

/-- The names that columns can belong to in the joined rows of a query. -/
def Select.Origin (query : Select) (scope : Scope) (name : String) : Prop :=
  scope.tableName? name = none ∨ ∃ base, query.base? scope = some base ∧ base.Carries name

/-- A frame that the from item and joins of a query have made, in a scope around it. -/
structure Select.Binds (query : Select) (scope : Scope) (frame : Frame) : Prop where
  closed : frame.Closed
  tables : ∀ name table, frame.table? name = some table →
    query.base? scope = some table ∨ scope.tableName? name = none
  labels : ∀ label name, frame.tableName? label = some name →
    label = name ∨ scope.tableName? label = none

variable {query : Select} {scope : Scope} {frame : Frame}

theorem Select.binds_empty (query : Select) (scope : Scope) : query.Binds scope .empty :=
  ⟨Frame.closed_empty, nofun, nofun⟩

theorem Select.Binds.bind (h : query.Binds scope frame) {label : String}
    (hframe : frame.tableName? label = none) (hscope : scope.tableName? label = none)
    (ht : query.base? scope = some table ∨ scope.tableName? table.name = none) :
    query.Binds scope (frame.bind table label) where
  closed := h.closed.bind hframe
  tables name found hf := by
    rw [Frame.table?_bind] at hf
    split at hf
    · next hn =>
      cases hf
      rw [hn]
      exact ht
    · exact h.tables name found hf
  labels l name hl := by
    rw [Frame.tableName?_bind] at hl
    split at hl
    · next hn =>
      cases hl
      rcases hn with rfl | rfl
      · exact .inr hscope
      · exact .inl rfl
    · exact h.labels l name hl

/-- What is known of a query that has been called in one state, after its from item and some
joins. -/
structure Select.Joined (query : Select) (s : State) (table : Table) (u : State) : Prop where
  outer : u.scope.outer = s.scope.frames
  groupSource : u.groupSource = none
  binds : query.Binds s.scope u.scope.innermost
  rows : ∀ row ∈ table.rows, row.From (query.Origin s.scope)

theorem Select.Joined.of_restored {u v : State} (h : query.Joined s table u) (hr : u.Restored v) :
    query.Joined s table v where
  outer := by rw [hr.scope]; exact h.outer
  groupSource := hr.groupSource.trans h.groupSource
  binds := by rw [hr.scope]; exact h.binds
  rows := h.rows

theorem Select.joined_source {ref : TableRef} {u : State} (hs : query.source = some ref)
    (h : Returns (evaluateTableRef env false ref) s.opened table u) : query.Joined s table u := by
  obtain ⟨label, hfree, hscope, hgroup, htable⟩ := evaluateTableRef_returns h
  have hbase : (query.base? s.scope = some table ∨ s.scope.tableName? table.name = none) ∧
      ∀ row ∈ table.rows, row.From (query.Origin s.scope) := by
    rcases htable with ⟨_, name, hname, hfind⟩ | ⟨hname, hrows⟩
    · have hb : query.base? s.scope = some table := by
        obtain ⟨pos, source, own⟩ := ref
        cases hname
        rw [Select.base?, hs]
        exact hfind
      exact ⟨.inl hb, fun row hr column hc => .inr ⟨table, hb, row, hr, column, hc, rfl⟩⟩
    · have hfree' : s.scope.tableName? table.name = none := by
        rw [hname]
        exact hfree
      exact ⟨.inr hfree', fun row hr => (hrows row hr).mono fun name hn => .inl (hn ▸ hfree)⟩
  refine ⟨?_, hgroup, ?_, hbase.2⟩
  · rw [hscope]
    rfl
  · rw [hscope]
    exact (query.binds_empty s.scope).bind rfl hfree hbase.1

/-- The table of a join is bound under a label that means nothing outside. -/
theorem Select.Joined.tableRef {left right : Table} {u v : State} (h : query.Joined s left u)
    {ref : TableRef} (hr : Returns (evaluateTableRef env true ref) u right v) :
    query.Joined s left v ∧ query.Origin s.scope right.name ∧
      ∀ row ∈ right.rows, row.From (query.Origin s.scope) := by
  obtain ⟨label, hfree, hscope, hgroup, htable⟩ := evaluateTableRef_returns hr
  obtain ⟨hname, hright⟩ := htable.resolve_left nofun
  obtain ⟨hframe, hout⟩ := (Scope.tableName?_eq_none u.scope).mp hfree
  rw [h.outer] at hout
  have horigin : query.Origin s.scope label := .inl hout
  refine ⟨⟨?_, hgroup.trans h.groupSource, ?_, h.rows⟩, hname ▸ horigin, fun row hrow => ?_⟩
  · rw [hscope]
    exact h.outer
  · rw [hscope]
    exact h.binds.bind hframe hout (.inr (hname ▸ hout))
  · exact (hright row hrow).mono fun name hn => hn ▸ horigin

theorem Select.Joined.join {left : Table} {u v : State} (h : query.Joined s left u) {join : Join}
    (hj : Returns (evaluateJoin env join left) u table v) : query.Joined s table v := by
  obtain ⟨right, w, hr, hrestored, hrows⟩ := evaluateJoin_returns hj
  obtain ⟨hw, hname, hright⟩ := h.tableRef hr
  have hv := hw.of_restored hrestored
  refine ⟨hv.outer, hv.groupSource, hv.binds, fun row hrow => ?_⟩
  obtain ⟨l, hl, r, hr, rfl⟩ := hrows row hrow
  refine (h.rows l hl).join ?_
  rcases hr with hr | rfl
  · exact hright r hr
  · exact Row.from_nulls hname right.fields

/-- The from item and any joins bind in one frame, and leave the others alone. -/
theorem Select.joined_returns {ref : TableRef} {joins : List Join} {u : State}
    (hs : query.source = some ref)
    (h : Returns (Pipeline.joined (evaluateTableRef env false ref) (joins.map (evaluateJoin env)))
      s.opened table u) : query.Joined s table u := by
  refine Pipeline.joined_returns (fun _ _ => Select.joined_source hs) ?_ h
  intro step hm left next v w hl hj
  obtain ⟨join, _, rfl⟩ := List.mem_map.mp hm
  exact hl.join hj

theorem Select.filtered_joined {ref : TableRef} {u : State} (hs : query.source = some ref)
    (h : Returns ((query.parts env).filtered (evaluateTableRef env false ref)) s.opened table u) :
    query.Joined s table u := by
  obtain ⟨joined, v, hj, hr, _, hrows⟩ := filtered_returns h
  have hv := (Select.joined_returns hs hj).of_restored hr
  exact ⟨hv.outer, hv.groupSource, hv.binds, fun row hrow => hv.rows row (hrows row hrow)⟩

end TableQuery
