import TableQuery.Evaluation.Resolve
import TableQuery.Proofs.Evaluation.Loop
import TableQuery.Table.Group
import TableQuery.Table.Sort

/-! # Where the columns of a row come from

Each column of a row says which table it belongs to. The operations on rows and tables keep these
names or replace all of them by one; none makes up a name. A reference finds a column only under the
table name that its qualifier stands for. -/

namespace TableQuery

variable {P : String → Prop}

/-- All columns of a row belong to tables with a property. -/
def Row.From (P : String → Prop) (row : Row) : Prop := ∀ column ∈ row.columns, P column.table

/-- A row of the table has a column that belongs to the table of that name. -/
def Table.Carries (table : Table) (name : String) : Prop :=
  ∃ row ∈ table.rows, ∃ column ∈ row.columns, column.table = name

/-! ## Rows -/

namespace Row

theorem From.mono {Q : String → Prop} {row : Row} (h : row.From P) (hpq : ∀ name, P name → Q name) :
    row.From Q := fun column hc => hpq _ (h column hc)

theorem From.join {left right : Row} (hl : left.From P) (hr : right.From P) :
    (left.join right).From P := by
  intro column hc
  rcases List.mem_append.mp hc with hc | hc
  · exact hl column hc
  · obtain ⟨own, ho, rfl⟩ := List.mem_map.mp hc
    exact hr own ho

theorem from_retag {name : String} (h : P name) (row : Row) : (row.retag name).From P := by
  intro column hc
  obtain ⟨own, _, rfl⟩ := List.mem_map.mp hc
  exact h

theorem from_ofFields {name : String} (h : P name) (fields : List String) :
    ∀ column ∈ Column.ofFields name fields, P column.table := by
  intro column hc
  obtain ⟨i, hi, rfl⟩ := List.mem_mapIdx.mp hc
  exact h

theorem from_nulls {name : String} (h : P name) (fields : List String) :
    (Row.nulls name fields).From P := from_ofFields h fields

theorem columns_of_ofColumns {name : String} {columns : List Column} {values : List Value}
    {row : Row} (h : ofColumns name columns values = .ok row) : row.columns = columns := by
  unfold ofColumns at h
  split at h
  · cases h; rfl
  · cases h

theorem from_ofValues {name : String} (hn : P name) {fields : List String} {values : List Value}
    {row : Row} (h : ofValues name fields values = .ok row) : row.From P := by
  intro column hc
  rw [columns_of_ofColumns h] at hc
  exact from_ofFields hn fields column hc

theorem mem_of_findColumn {row : Row} {name table : String} {property : Column → Bool}
    {column : Column} (h : row.findColumn name table property = .ok (some column)) :
    column ∈ row.columns ∧ column.table = table := by
  unfold findColumn at h
  split at h
  · cases h
  · next hf =>
    cases h
    have hm : column ∈ row.columns.filter fun c => c.table == table && property c := by
      rw [hf]
      exact List.mem_singleton.mpr rfl
    have hp := (List.mem_filter.mp hm).2
    simp only [Bool.and_eq_true, beq_iff_eq] at hp
    exact ⟨(List.mem_filter.mp hm).1, hp.1⟩
  · cases h

theorem mem_of_column {row : Row} {name table : String} {column : Column}
    (h : row.column name table = .ok (some column)) :
    column ∈ row.columns ∧ column.table = table := by
  obtain ⟨found, hf, h⟩ := exists_ok_of_bind h
  cases found with
  | some c => cases h; exact mem_of_findColumn hf
  | none => exact mem_of_findColumn h

end Row

/-- A reference that is resolved means a column of the row, and the table that the column belongs to
is the one that the reference means. -/
theorem Scope.resolve_ok {scope : Scope} {ref : ColumnRef} {row : Row} {column : Column} {v : Value}
    (h : scope.resolve ref row = .ok (column, v)) :
    scope.tableOf ref = .ok column.table ∧ column ∈ row.columns := by
  obtain ⟨table, ht, h⟩ := exists_ok_of_bind h
  obtain ⟨found, hf, h⟩ := exists_ok_of_bind h
  cases found with
  | none => cases h
  | some found =>
    dsimp only at h
    cases hv : row.values[found.index]? with
    | none =>
      rw [hv] at h
      cases h
    | some value =>
      rw [hv] at h
      cases h
      obtain ⟨hm, he⟩ := Row.mem_of_column hf
      exact ⟨by rw [ht, he], hm⟩

/-! ## Groups -/

/-- The key row and the rows of a group have the property. -/
def Group.From (P : String → Prop) (group : Group) : Prop :=
  group.keyRow.From P ∧ ∀ row ∈ group.rows, row.From P

theorem Group.from_insert {keys : List GroupKey} {keyRow : Except QueryError Row} {row : Row}
    (hk : ∀ first, keyRow = .ok first → first.From P) (hr : row.From P) :
    ∀ {groups groups' : List Group}, (∀ group ∈ groups, group.From P) →
      insert keys keyRow row groups = .ok groups' → ∀ group ∈ groups', group.From P
  | [], groups', _, h => by
    obtain ⟨first, hf, h⟩ := exists_ok_of_bind h
    cases h
    intro group hg
    cases List.mem_singleton.mp hg
    exact ⟨hk first hf, by simpa using hr⟩
  | group :: rest, groups', hg, h => by
    obtain ⟨hhead, hrest⟩ := List.forall_mem_cons.mp hg
    unfold insert at h
    split at h
    · cases h
      refine List.forall_mem_cons.mpr ⟨⟨hhead.1, fun r hm => ?_⟩, hrest⟩
      rcases List.mem_append.mp hm with hm | hm
      · exact hhead.2 r hm
      · cases List.mem_singleton.mp hm
        exact hr
    · cases hi : insert keys keyRow row rest with
      | error e => rw [hi] at h; cases h
      | ok inserted =>
        rw [hi] at h
        cases h
        exact List.forall_mem_cons.mpr ⟨hhead, from_insert hk hr hrest hi⟩

theorem from_groupRows {name : String} {key : Row → Except QueryError (List (Column × Value))}
    {rows : List Row} {groups : List Group} (hrows : ∀ row ∈ rows, row.From P)
    (hkey : ∀ row ∈ rows, ∀ cells, key row = .ok cells → ∀ cell ∈ cells, P cell.1.table)
    (h : groupRows name key rows = .ok groups) : ∀ group ∈ groups, group.From P := by
  refine foldlM_ok (Q := fun groups => ∀ group ∈ groups, group.From P) nofun ?_ h
  intro row hr before after hb hi
  obtain ⟨cells, hc, hi⟩ := exists_ok_of_bind hi
  obtain ⟨keys, _, hi⟩ := exists_ok_of_bind hi
  refine Group.from_insert (fun first hf column hm => ?_) (hrows row hr) hb hi
  rw [Row.columns_of_ofColumns hf] at hm
  obtain ⟨i, hi, rfl⟩ := List.mem_mapIdx.mp hm
  exact hkey row hr cells hc _ (List.getElem_mem hi)

end TableQuery
