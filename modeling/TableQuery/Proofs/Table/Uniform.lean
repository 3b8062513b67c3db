import Mathlib.Data.List.Nodup
import TableQuery.Proofs.Table.Origin
import TableQuery.Table.Join

/-! # Uniform tables

A table is uniform if its rows differ in their values only: each has one value and one column for
every field, and the columns are called by the fields, count their places and belong to the table.
Joined rows are laid out table by table in the same way. On such rows a reference finds one and the
same column, or fails in the same way, whatever the values. -/

namespace TableQuery

/-! ## Layouts -/

/-- The columns of tables side by side, each under the name of its table. -/
def Column.ofTables (tables : List Table) : List Column :=
  (tables.flatMap fun table => table.fields.map fun field => (table.name, field)).mapIdx
    fun index entry => ⟨entry.1, entry.2, entry.2, index⟩

/-- The row has a column and a value for every field of the tables. -/
structure Row.LaidOut (tables : List Table) (row : Row) : Prop where
  columns : row.columns = Column.ofTables tables
  values : row.values.length = (tables.flatMap (·.fields)).length

/-- The table has the fields of the items side by side, and so have all its rows. -/
structure Table.LaidOut (items : List Table) (table : Table) : Prop where
  fields : table.fields = items.flatMap (·.fields)
  rows : ∀ row ∈ table.rows, row.LaidOut items

/-- All rows have the columns of the table, in the order of its fields, and as many values. -/
def Table.Uniform (table : Table) : Prop :=
  ∀ row ∈ table.rows, row.columns = Column.ofFields table.name table.fields ∧
    row.values.length = table.fields.length

/-- Every column of the row has a value. -/
def Row.Indexed (row : Row) : Prop := ∀ column ∈ row.columns, column.index < row.values.length

/-! ## Columns -/

namespace Column

@[simp] theorem length_ofFields (name : String) (fields : List String) :
    (ofFields name fields).length = fields.length := by
  simp [ofFields]

theorem map_label_ofFields (name : String) (fields : List String) :
    (ofFields name fields).map (·.label) = fields :=
  List.ext_getElem (by simp) fun i _ _ => by simp [ofFields]

theorem ofTables_singleton (table : Table) :
    ofTables [table] = ofFields table.name table.fields := by
  refine List.ext_getElem? fun i => ?_
  cases h : table.fields[i]? <;> simp [ofTables, ofFields, List.getElem?_mapIdx, h]

/-- One more table moves its columns behind those of the others. -/
theorem ofTables_append_singleton (tables : List Table) (table : Table) :
    ofTables (tables ++ [table]) =
      ofTables tables ++ (ofFields table.name table.fields).map fun column =>
        column.atIndex ((ofTables tables).length + column.index) := by
  have hn : (tables.flatMap fun table => table.fields.map fun field => (table.name, field)).length =
      (ofTables tables).length := by
    simp [ofTables]
  rw [ofTables, List.flatMap_append, List.mapIdx_append, hn]
  refine congrArg (ofTables tables ++ ·) (List.ext_getElem? fun i => ?_)
  cases h : table.fields[i]? <;>
    simp [ofFields, atIndex, List.getElem?_mapIdx, h, Nat.add_comm]

theorem index_of_mem_ofTables {tables : List Table} {column : Column}
    (h : column ∈ ofTables tables) : column.index < (tables.flatMap (·.fields)).length := by
  obtain ⟨i, hi, rfl⟩ := List.mem_mapIdx.mp h
  simpa [List.length_flatMap] using hi

theorem ofTable_ofFields (name other : String) (fields : List String) :
    (ofFields other fields).map (·.ofTable name) = ofFields name fields := by
  refine List.ext_getElem? fun i => ?_
  cases h : fields[i]? <;> simp [ofFields, ofTable, List.getElem?_mapIdx, h]

end Column

/-! ## Rows -/

namespace Row

variable {tables : List Table}

theorem LaidOut.indexed {row : Row} (h : row.LaidOut tables) : row.Indexed := by
  intro column hc
  rw [h.columns] at hc
  rw [h.values]
  exact Column.index_of_mem_ofTables hc

theorem ofColumns_ok {name : String} {columns : List Column} {values : List Value} {row : Row}
    (h : ofColumns name columns values = .ok row) :
    row.columns = columns ∧ row.values = values ∧ columns.length = values.length := by
  unfold ofColumns at h
  split at h
  · next hl =>
    cases h
    exact ⟨rfl, rfl, hl⟩
  · cases h

theorem ofValues_ok {name : String} {fields : List String} {values : List Value} {row : Row}
    (h : ofValues name fields values = .ok row) :
    row.columns = Column.ofFields name fields ∧ row.values = values ∧
      fields.length = values.length := by
  obtain ⟨hc, hv, hl⟩ := ofColumns_ok h
  rw [Column.length_ofFields] at hl
  exact ⟨hc, hv, hl⟩

theorem LaidOut.join {left right : Row} {table : Table} (hl : left.LaidOut tables)
    (hc : right.columns = Column.ofFields table.name table.fields)
    (hv : right.values.length = table.fields.length) :
    (left.join right).LaidOut (tables ++ [table]) where
  columns := by
    rw [Column.ofTables_append_singleton, ← hl.columns, ← hc]
    rfl
  values := by
    have hj : (left.join right).values = left.values ++ right.values := rfl
    rw [hj, List.length_append, hl.values, hv]
    simp

end Row

/-! ## Tables -/

namespace Table

variable {table : Table} {items : List Table}

theorem uniform_iff : table.Uniform ↔ table.LaidOut [table] := by
  constructor
  · intro h
    refine ⟨by simp, fun row hr => ⟨?_, ?_⟩⟩
    · rw [Column.ofTables_singleton]
      exact (h row hr).1
    · simpa using (h row hr).2
  · intro h row hr
    have hrow := h.rows row hr
    refine ⟨?_, by simpa using hrow.values⟩
    rw [hrow.columns, Column.ofTables_singleton]

theorem LaidOut.withRows (h : table.LaidOut items) {rows : List Row}
    (hs : ∀ row ∈ rows, row ∈ table.rows) : (table.withRows rows).LaidOut items :=
  ⟨h.fields, fun row hr => h.rows row (hs row hr)⟩

theorem Uniform.withRows (h : table.Uniform) {rows : List Row}
    (hs : ∀ row ∈ rows, row ∈ table.rows) : (table.withRows rows).Uniform :=
  fun row hr => h row (hs row hr)

theorem uniform_ofValues {name : String} {fields : List String} {values : List (List Value)}
    (h : ofValues name fields values = .ok table) : table.Uniform := by
  obtain ⟨rows, hrows, ht⟩ := exists_ok_of_bind h
  cases ht
  intro row hr
  obtain ⟨vs, _, hv⟩ := exists_mem_of_mapM hrows row hr
  obtain ⟨hc, rfl, hl⟩ := Row.ofValues_ok hv
  exact ⟨hc, hl.symm⟩

theorem Uniform.renamed (h : table.Uniform) (name : String) : (table.renamed name).Uniform := by
  intro row hr
  obtain ⟨own, ho, rfl⟩ := List.mem_map.mp hr
  obtain ⟨hc, hv⟩ := h own ho
  refine ⟨?_, hv⟩
  show own.columns.map (·.ofTable name) = Column.ofFields name table.fields
  rw [hc, Column.ofTable_ofFields]

theorem Uniform.named (h : table.Uniform) (name : String) : (table.named name).Uniform := by
  unfold Table.named
  split
  · exact h
  · exact h.renamed name

/-- A row joined with a row of another table, or with the row that stands for a missing one. -/
theorem LaidOut.join {left right : Table} (hl : left.LaidOut items) (hr : right.Uniform)
    {l r : Row} (hlm : l ∈ left.rows) (hrm : r ∈ right.rows ∨ r = right.nullRow) :
    (l.join r).LaidOut (items ++ [right]) := by
  rcases hrm with hrm | rfl
  · exact (hl.rows l hlm).join (hr r hrm).1 (hr r hrm).2
  · exact (hl.rows l hlm).join rfl (by simp [nullRow, Row.nulls])

theorem LaidOut.joinedWith {left right : Table} (hl : left.LaidOut items) {name : String}
    {rows : List Row} (hrows : ∀ row ∈ rows, row.LaidOut (items ++ [right])) :
    (left.joinedWith right name rows).LaidOut (items ++ [right]) where
  fields := by simp [Table.joinedWith, hl.fields]
  rows := hrows

end Table

/-! ## References -/

/-- What occurs once occurs at its index. -/
theorem idxOf_of_count_eq_one {fields : List String} {name : String} {i : Nat}
    (hi : i < fields.length) (hn : fields[i] = name) (hc : fields.count name = 1) :
    fields.idxOf name = i := by
  have hsplit := List.take_append_drop i fields
  rw [List.drop_eq_getElem_cons hi, hn] at hsplit
  rw [← hsplit, List.count_append, List.count_cons_self] at hc
  have hbefore : name ∉ fields.take i := List.count_eq_zero.mp (by omega)
  rw [← hsplit, List.idxOf_append_of_notMem hbefore, List.idxOf_cons_self, List.length_take,
    Nat.min_eq_left (Nat.le_of_lt hi), Nat.add_zero]

namespace Row

theorem filter_of_findColumn {row : Row} {name table : String} {property : Column → Bool}
    {column : Column} (h : row.findColumn name table property = .ok (some column)) :
    (row.columns.filter fun c => c.table == table && property c) = [column] := by
  unfold findColumn at h
  split at h
  · cases h
  · next hf =>
    cases h
    exact hf
  · cases h

theorem property_of_findColumn {row : Row} {name table : String} {property : Column → Bool}
    {column : Column} (h : row.findColumn name table property = .ok (some column)) :
    property column := by
  have hm : column ∈ row.columns.filter fun c => c.table == table && property c := by
    rw [filter_of_findColumn h]
    exact List.mem_singleton.mpr rfl
  exact (Bool.and_eq_true_iff.mp (List.mem_filter.mp hm).2).2

/-- Columns are shown under their own names, as they are in all tables made of values. -/
def OwnLabels (row : Row) : Prop := ∀ column ∈ row.columns, column.label = column.name

/-- Then looking for own names adds nothing to looking for labels. -/
theorem OwnLabels.columnByLabel {row : Row} (h : row.OwnLabels) {name table : String}
    {column : Column} (hc : row.column name table = .ok (some column)) :
    row.columnByLabel name table = .ok (some column) := by
  have hsame : row.columnByName name table = row.columnByLabel name table := by
    unfold columnByName Row.columnByLabel findColumn
    have hf : (row.columns.filter fun c => c.table == table && c.name == name) =
        row.columns.filter fun c => c.table == table && c.label == name :=
      List.filter_congr fun c hm => by rw [h c hm]
    rw [hf]
  obtain ⟨found, hf, hc⟩ := exists_ok_of_bind hc
  cases found with
  | some c =>
    cases hc
    exact hf
  | none =>
    rw [← hsame]
    exact hc

/-- In a row of a table, a column that is found is the only one with its name. -/
theorem column_ofFields {row : Row} {table own name : String} {fields : List String}
    {column : Column} (h : row.columns = Column.ofFields table fields)
    (hc : row.column name own = .ok (some column)) :
    fields.count name = 1 ∧ column.index = fields.idxOf name := by
  obtain ⟨hm, ht⟩ := mem_of_column hc
  have hcolumn : ∀ c ∈ row.columns, ∃ i, ∃ hi : i < fields.length,
      c = ⟨table, fields[i], fields[i], i⟩ := by
    intro c hc
    rw [h] at hc
    obtain ⟨i, hi, rfl⟩ := List.mem_mapIdx.mp hc
    exact ⟨i, hi, rfl⟩
  have howns : row.OwnLabels := by
    intro c hc
    obtain ⟨i, hi, rfl⟩ := hcolumn c hc
    rfl
  have hlabels : row.columns.map (·.label) = fields := by rw [h, Column.map_label_ofFields]
  obtain ⟨i, hi, rfl⟩ := hcolumn column hm
  have hone := filter_of_findColumn (howns.columnByLabel hc)
  have hname : fields[i] = name := by simpa using property_of_findColumn (howns.columnByLabel hc)
  have hcount : fields.count name = 1 := by
    have hfilter : (row.columns.filter fun c => c.table == own && c.label == name) =
        row.columns.filter ((· == name) ∘ (·.label)) := by
      refine List.filter_congr fun c hc => ?_
      obtain ⟨j, hj, rfl⟩ := hcolumn c hc
      have htable : table = own := ht
      simp [htable]
    rw [List.count_eq_length_filter, ← hlabels, List.filter_map, ← hfilter, hone]
    rfl
  exact ⟨hcount, (idxOf_of_count_eq_one hi hname hcount).symm⟩

/-- In a row of a table with distinct fields, every column is found by its name. -/
theorem column_of_nodup {row : Row} {table : String} {fields : List String}
    (h : row.columns = Column.ofFields table fields) (hn : fields.Nodup) {i : Nat}
    (hi : i < fields.length) :
    row.column fields[i] table = .ok (some ⟨table, fields[i], fields[i], i⟩) := by
  have hnodup : (Column.ofFields table fields).Nodup :=
    List.Nodup.of_map _ ((Column.map_label_ofFields table fields).symm ▸ hn)
  have hm : ⟨table, fields[i], fields[i], i⟩ ∈ Column.ofFields table fields :=
    List.mem_mapIdx.mpr ⟨i, hi, rfl⟩
  have hsame : ∀ c ∈ Column.ofFields table fields,
      (c.table == table && c.label == fields[i]) = (c == ⟨table, fields[i], fields[i], i⟩) := by
    intro c hc
    obtain ⟨j, hj, rfl⟩ := List.mem_mapIdx.mp hc
    by_cases hij : j = i
    · subst hij
      simp
    · simp [hij, hn.getElem_inj_iff]
  have hfilter : (row.columns.filter fun c => c.table == table && c.label == fields[i]) =
      [⟨table, fields[i], fields[i], i⟩] := by
    rw [h, List.filter_congr hsame, List.filter_beq, List.count_eq_one_of_mem hnodup hm]
    rfl
  unfold column columnByLabel findColumn
  rw [hfilter]
  rfl

end Row

namespace Scope

variable {scope : Scope} {ref : ColumnRef} {row : Row} {column : Column} {v : Value}

theorem resolve_eq_ok : scope.resolve ref row = .ok (column, v) ↔
    scope.tableOf ref = .ok column.table ∧ row.column ref.name column.table = .ok (some column) ∧
      row.values[column.index]? = some v := by
  constructor
  · intro h
    obtain ⟨table, ht, h⟩ := exists_ok_of_bind h
    obtain ⟨found, hf, h⟩ := exists_ok_of_bind h
    cases found with
    | none => cases h
    | some found =>
      dsimp only at h
      split at h
      · next value hv =>
        cases h
        obtain ⟨-, rfl⟩ := Row.mem_of_column hf
        exact ⟨ht, hf, hv⟩
      · cases h
  · rintro ⟨ht, hf, hv⟩
    unfold resolve
    simp only [ht, Bind.bind, Except.bind, hf, hv]
    rfl

variable (scope ref)

/-- The column that a reference means on a row. -/
def columnOf (row : Row) : Except QueryError Column := do
  let table ← scope.tableOf ref
  match ← row.column ref.name table with
  | none => .error (.columnNotFound ref.shown)
  | some column => .ok column

/-- Which column a reference means depends on the columns of the row alone. -/
theorem columnOf_congr {row row' : Row} (h : row.columns = row'.columns) :
    scope.columnOf ref row = scope.columnOf ref row' := by
  have hf : ∀ name table property,
      row.findColumn name table property = row'.findColumn name table property := by
    intro name table property
    unfold Row.findColumn
    rw [h]
  unfold columnOf Row.column Row.columnByLabel Row.columnByName
  simp only [hf]

/-- Where every column has a value, a reference fails only if it means no column. -/
theorem resolve_of_indexed {row : Row} (h : row.Indexed) :
    (scope.resolve ref row).map (·.1) = scope.columnOf ref row := by
  unfold resolve columnOf
  cases scope.tableOf ref with
  | error e => rfl
  | ok table =>
    cases hc : row.column ref.name table with
    | error e => simp [Bind.bind, Except.bind, hc, Except.map]
    | ok found =>
      cases found with
      | none => simp [Bind.bind, Except.bind, hc, Except.map]
      | some column =>
        have hm : column.index < row.values.length := h column (Row.mem_of_column hc).1
        simp [Bind.bind, Except.bind, hc, Except.map, List.getElem?_eq_getElem hm, Pure.pure,
          Except.pure]

end Scope

/-- A reference means the same column, or fails in the same way, on all rows that are laid out
alike. -/
theorem Table.LaidOut.resolve {items : List Table} {table : Table} (h : table.LaidOut items)
    (scope : Scope) (ref : ColumnRef) :
    ∃ outcome, ∀ row ∈ table.rows, (scope.resolve ref row).map (·.1) = outcome := by
  refine ⟨scope.columnOf ref ⟨[], Column.ofTables items, []⟩, fun row hr => ?_⟩
  have hrow := h.rows row hr
  rw [scope.resolve_of_indexed ref hrow.indexed]
  exact scope.columnOf_congr ref hrow.columns

end TableQuery
