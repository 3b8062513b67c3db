import TableQuery.Proofs.Scope
import TableQuery.Proofs.Table.Uniform

/-! # Joined rows

A joined row is made of the columns and values of two rows, and knows where the tables of both begin.
Joining is associative. What is found in one of the rows is found in the joined row as well, as long
as the other one has no column of that table, and a table begins where its first column stands. -/

namespace TableQuery.Row

/-! ## Where tables begin -/

section

variable (left right : Row) (table : String)

theorem offsets_join : (left.join right).offsets =
    left.offsets ++ (right.offsets.filter fun entry => (left.offset? entry.1).isNone).map
      fun entry => (entry.1, left.columns.length + entry.2) := rfl

/-- A table begins where it begins on the left, or else behind the columns of the left row. -/
theorem offset?_join : (left.join right).offset? table =
    (left.offset? table).or ((right.offset? table).map (left.columns.length + ·)) := by
  rw [offset?, offsets_join, List.lookup_append, lookup_map_value,
    lookup_filter_key _ _ fun table => (left.offset? table).isNone]
  change (left.offset? table).or _ = _
  cases left.offset? table <;> rfl

/-- A column of a right row at its place in the joined row. -/
def behind (left : Row) (column : Column) : Column :=
  column.atIndex (left.columns.length + column.index)

theorem columns_join :
    (left.join right).columns = left.columns ++ right.columns.map left.behind := rfl

theorem values_join : (left.join right).values = left.values ++ right.values := rfl

/-- The place of the first column of a table. -/
def firstColumn? (row : Row) (table : String) : Option Nat :=
  row.columns.findIdx? (·.table == table)

theorem firstColumn?_join : (left.join right).firstColumn? table =
    (left.firstColumn? table).or ((right.firstColumn? table).map (left.columns.length + ·)) := by
  unfold firstColumn?
  rw [columns_join, List.findIdx?_append, List.findIdx?_map]
  simp only [Nat.add_comm]
  rfl

end

/-! ## Associativity -/

/-- Of the tables that a third row adds, neither order of joining keeps those of the first two. -/
theorem filter_offsets_join (a b c : Row) :
    (c.offsets.filter fun entry => ((a.join b).offset? entry.1).isNone) =
      (c.offsets.filter fun entry => (b.offset? entry.1).isNone).filter
        fun entry => (a.offset? entry.1).isNone := by
  rw [List.filter_filter]
  refine List.filter_congr fun entry _ => ?_
  rw [offset?_join]
  cases a.offset? entry.1 <;> cases b.offset? entry.1 <;> rfl

/-- Three rows are joined to the same row from the left and from the right, tables that several of
them name included. -/
theorem join_assoc (a b c : Row) : (a.join b).join c = a.join (b.join c) := by
  have hlength : (a.join b).columns.length = a.columns.length + b.columns.length := by
    simp [columns_join]
  have hcolumns : ((a.join b).join c).columns = (a.join (b.join c)).columns := by
    simp [columns_join, behind, Column.atIndex, Nat.add_assoc]
  have hvalues : ((a.join b).join c).values = (a.join (b.join c)).values :=
    List.append_assoc a.values b.values c.values
  have hoffsets : ((a.join b).join c).offsets = (a.join (b.join c)).offsets := by
    -- The tables of `a`, then those of `b` that `a` has not, then those of `c` that neither has.
    rw [offsets_join (a.join b) c, filter_offsets_join, hlength, offsets_join a b,
      offsets_join a (b.join c), offsets_join b c, List.filter_append, List.map_append,
      List.append_assoc, List.filter_map, List.map_map]
    simp only [Function.comp_def, Nat.add_assoc]
  exact Row.mk.injEq .. ▸ ⟨hoffsets, hcolumns, hvalues⟩

/-! ## Rows of several tables -/

/-- The name and the fields of a table. -/
structure Heading where
  table : String
  fields : List String

/-- The row is made of rows of single tables, with values or all nulls, by joining. The tables are
listed from left to right. -/
inductive MadeOf : Row → List Heading → Prop where
  | values {table : String} {fields : List String} {values : List Value} {row : Row}
    (h : ofValues table fields values = .ok row) : MadeOf row [⟨table, fields⟩]
  | nulls (table : String) (fields : List String) : MadeOf (nulls table fields) [⟨table, fields⟩]
  | join {left right : Row} {headings more : List Heading} (hl : MadeOf left headings)
    (hr : MadeOf right more) : MadeOf (left.join right) (headings ++ more)

/-- The row has the columns of one table and a value for each. -/
structure Single (row : Row) (heading : Heading) : Prop where
  offsets : row.offsets = [(heading.table, 0)]
  columns : row.columns = Column.ofFields heading.table heading.fields
  values : row.values.length = heading.fields.length

/-- Every column has a value, and there are no other values. -/
structure Complete (row : Row) : Prop where
  indexed : row.Indexed
  length : row.values.length = row.columns.length

section

variable {row left right : Row} {heading : Heading} {headings : List Heading} {table : String}

theorem single_ofValues {fields : List String} {values : List Value}
    (h : ofValues table fields values = .ok row) : row.Single ⟨table, fields⟩ := by
  unfold ofValues ofColumns at h
  split at h
  · next hl =>
    cases h
    exact ⟨rfl, rfl, by simpa using hl.symm⟩
  · cases h

theorem single_nulls (table : String) (fields : List String) :
    (nulls table fields).Single ⟨table, fields⟩ := ⟨rfl, rfl, List.length_map _⟩

/-- What holds of the rows of single tables and is kept by joining holds of all rows. -/
theorem MadeOf.induct {P : Row → List Heading → Prop}
    (single : ∀ {row : Row} {heading : Heading}, row.Single heading → P row [heading])
    (join : ∀ {left right : Row} {headings more : List Heading}, P left headings → P right more →
      P (left.join right) (headings ++ more)) (h : row.MadeOf headings) : P row headings := by
  induction h with
  | values h => exact single (single_ofValues h)
  | nulls table fields => exact single (single_nulls table fields)
  | join _ _ hl hr => exact join hl hr

theorem Single.complete (h : row.Single heading) : row.Complete where
  indexed := by
    intro column hc
    rw [h.columns] at hc
    obtain ⟨i, hi, rfl⟩ := List.mem_mapIdx.mp hc
    exact h.values ▸ hi
  length := by rw [h.columns, h.values, Column.length_ofFields]

theorem Complete.join (hl : left.Complete) (hr : right.Complete) : (left.join right).Complete where
  indexed := by
    intro column hc
    rw [values_join, List.length_append]
    rcases List.mem_append.mp hc with hc | hc
    · have := hl.indexed column hc
      omega
    · obtain ⟨own, ho, rfl⟩ := List.mem_map.mp hc
      have := hr.indexed own ho
      have hlength := hl.length
      simp only [Column.atIndex]
      omega
  length := by simp [columns_join, values_join, hl.length, hr.length]

theorem MadeOf.complete (h : row.MadeOf headings) : row.Complete :=
  h.induct (P := fun row _ => row.Complete) Single.complete Complete.join

/-! ## Where the tables of a row begin -/

theorem Single.offset?_eq (h : row.Single heading) :
    row.offset? table = if heading.table = table then some 0 else none := by
  rw [offset?, h.offsets, List.lookup_cons, List.lookup_nil]
  by_cases ht : heading.table = table
  · simp [ht]
  · have hb : (table == heading.table) = false := by simpa using Ne.symm ht
    simp [ht, hb]

/-- A table without columns has no first one. -/
theorem Single.firstColumn?_eq (h : row.Single heading) :
    row.firstColumn? table =
      if heading.table = table ∧ heading.fields ≠ [] then some 0 else none := by
  obtain ⟨own, fields⟩ := heading
  rw [firstColumn?, h.columns]
  by_cases ht : own = table
  · cases fields <;> simp [Column.ofFields, ht, List.findIdx?_cons]
  · rw [if_neg fun hand => ht hand.1, List.findIdx?_eq_none_iff]
    intro column hc
    obtain ⟨i, hi, rfl⟩ := List.mem_mapIdx.mp hc
    simpa using ht

/-- A table begins with its first column, if all tables of its name have columns. -/
theorem MadeOf.offset?_eq (h : row.MadeOf headings) :
    (∀ heading ∈ headings, heading.table = table → heading.fields ≠ []) →
      row.offset? table = row.firstColumn? table := by
  refine h.induct (P := fun row headings =>
    (∀ heading ∈ headings, heading.table = table → heading.fields ≠ []) →
      row.offset? table = row.firstColumn? table) (fun {row heading} hs hfields => ?_)
    (fun {left right headings more} hl hr hfields => ?_)
  · -- A table without columns begins somewhere, too, but has no first column.
    have hne := hfields heading (List.mem_singleton.mpr rfl)
    rw [hs.offset?_eq, hs.firstColumn?_eq]
    exact if_congr (iff_self_and.mpr hne) rfl rfl
  · obtain ⟨hleft, hright⟩ := List.forall_mem_append.mp hfields
    rw [offset?_join, firstColumn?_join, hl hleft, hr hright]

/-- A table with columns has a first one. -/
theorem MadeOf.firstColumn?_isSome (h : row.MadeOf headings) :
    ∀ heading ∈ headings, heading.fields ≠ [] → (row.firstColumn? heading.table).isSome := by
  refine h.induct (P := fun row headings => ∀ heading ∈ headings, heading.fields ≠ [] →
    (row.firstColumn? heading.table).isSome) (fun {row heading} hs => ?_)
    (fun {left right headings more} hl hr => List.forall_mem_append.mpr ⟨?_, ?_⟩)
  · refine List.forall_mem_singleton.mpr fun hne => ?_
    rw [hs.firstColumn?_eq, if_pos ⟨rfl, hne⟩]
    rfl
  · intro heading hm hne
    rw [firstColumn?_join, Option.isSome_or, hl heading hm hne, Bool.true_or]
  · intro heading hm hne
    rw [firstColumn?_join, Option.isSome_or, Option.isSome_map, hr heading hm hne, Bool.or_true]

/-- What is listed under a name that is listed once. -/
theorem eq_of_count_eq_one {other : Heading} (hm : heading ∈ headings) (ho : other ∈ headings)
    (ht : other.table = heading.table)
    (hc : (headings.map (·.table)).count heading.table = 1) : other = heading := by
  rw [List.count_eq_length_filter, List.filter_map, List.length_map,
    List.length_eq_one_iff] at hc
  obtain ⟨only, honly⟩ := hc
  have heq : ∀ h ∈ headings, h.table = heading.table → h = only := by
    intro h hh htable
    rw [← List.mem_singleton, ← honly]
    exact List.mem_filter.mpr ⟨hh, by simpa using htable⟩
  rw [heq other ho ht, heq heading hm rfl]

end

/-! ## Lookups -/

section

variable {left right : Row} {table : String}

theorem findColumn_join_left (h : right.From (· ≠ table)) (name : String)
    (property : Column → Bool) :
    (left.join right).findColumn name table property = left.findColumn name table property := by
  have hright : ((right.columns.map left.behind).filter
      fun c => c.table == table && property c) = [] := by
    refine List.filter_eq_nil_iff.mpr fun column hc => ?_
    obtain ⟨own, ho, rfl⟩ := List.mem_map.mp hc
    have hown : (left.behind own).table ≠ table := h own ho
    simp [hown]
  unfold findColumn
  rw [columns_join, List.filter_append, hright, List.append_nil]

theorem findColumn_join_right (h : left.From (· ≠ table)) (name : String)
    {property : Column → Bool} (hp : ∀ column, property (left.behind column) = property column) :
    (left.join right).findColumn name table property =
      (right.findColumn name table property).map (Option.map left.behind) := by
  have hleft : (left.columns.filter fun c => c.table == table && property c) = [] :=
    List.filter_eq_nil_iff.mpr fun column hc => by simp [h column hc]
  have hright : (fun c => c.table == table && property c) ∘ left.behind =
      fun c => c.table == table && property c :=
    funext fun column => congrArg (column.table == table && ·) (hp column)
  unfold findColumn
  rw [columns_join, List.filter_append, hleft, List.nil_append, List.filter_map, hright]
  generalize (right.columns.filter fun c => c.table == table && property c) = found
  rcases found with _ | ⟨column, _ | ⟨second, rest⟩⟩ <;> rfl

theorem column_join_left (h : right.From (· ≠ table)) (name : String) :
    (left.join right).column name table = left.column name table := by
  unfold column columnByLabel columnByName
  rw [findColumn_join_left h, findColumn_join_left h]

theorem column_join_right (h : left.From (· ≠ table)) (name : String) :
    (left.join right).column name table =
      (right.column name table).map (Option.map left.behind) := by
  unfold column columnByLabel columnByName
  rw [findColumn_join_right h name fun _ => rfl, findColumn_join_right h name fun _ => rfl]
  rcases right.findColumn name table (·.label == name) with e | _ | column <;> rfl

theorem get_join_left (hl : left.Complete) (h : right.From (· ≠ table)) (name : String) :
    (left.join right).get name table = left.get name table := by
  unfold get
  rw [column_join_left h]
  rcases hc : left.column name table with e | _ | column
  · rfl
  · rfl
  · have hindex := hl.indexed column (mem_of_column hc).1
    have hvalue : (left.join right).values[column.index]? = left.values[column.index]? :=
      List.getElem?_append_left hindex
    exact congrArg Except.ok hvalue

theorem get_join_right (hl : left.Complete) (h : left.From (· ≠ table)) (name : String) :
    (left.join right).get name table = right.get name table := by
  unfold get
  rw [column_join_right h]
  rcases right.column name table with e | _ | column
  · rfl
  · rfl
  · have hvalue : (left.join right).values[left.columns.length + column.index]? =
        right.values[column.index]? := by
      rw [← hl.length, values_join, List.getElem?_append_right (Nat.le_add_right _ _),
        Nat.add_sub_cancel_left]
    exact congrArg Except.ok hvalue

/-- In a joined row, what is asked of a table that only one of the two rows has columns of is
answered as by that row, whatever the answer is. Each table with columns whose name occurs once among
those of both rows begins with its first column. -/
theorem join_keeps_lookups {headings more : List Heading} (hl : left.MadeOf headings)
    (hr : right.MadeOf more) :
    (∀ name table, right.From (· ≠ table) →
      (left.join right).get name table = left.get name table) ∧
    (∀ name table, left.From (· ≠ table) →
      (left.join right).get name table = right.get name table) ∧
    ∀ heading ∈ headings ++ more, heading.fields ≠ [] →
      ((headings ++ more).map (·.table)).count heading.table = 1 →
      ∃ place, (left.join right).offset? heading.table = some place ∧
        (left.join right).firstColumn? heading.table = some place := by
  refine ⟨fun name table h => get_join_left hl.complete h name,
    fun name table h => get_join_right hl.complete h name, fun heading hm hne hc => ?_⟩
  have hjoin := hl.join hr
  obtain ⟨place, hplace⟩ := Option.isSome_iff_exists.mp (hjoin.firstColumn?_isSome heading hm hne)
  refine ⟨place, ?_, hplace⟩
  rw [hjoin.offset?_eq fun other ho ht => ?_, hplace]
  rw [eq_of_count_eq_one hm ho ht hc]
  exact hne

/-- Two columns of `l` stand in front of those of `r`, which has a column of a name that `l` has
too. -/
theorem found_behind_two_columns :
    let left : Row :=
      ⟨[("l", 0)], Column.ofFields "l" ["a", "b"], [.text "x", .text "y"]⟩
    let right : Row := nulls "r" ["a"]
    (left.MadeOf [⟨"l", ["a", "b"]⟩] ∧ right.MadeOf [⟨"r", ["a"]⟩]) ∧
      (left.join right).get "a" "l" = .ok (some (.text "x")) ∧
      (left.join right).get "a" "r" = .ok (some .null) ∧
      (left.join right).offset? "r" = some 2 := by
  intro left right
  have hvalues : ofValues "l" ["a", "b"] [.text "x", .text "y"] = .ok left := rfl
  have hl : left.MadeOf [⟨"l", ["a", "b"]⟩] := .values hvalues
  have hr : right.MadeOf [⟨"r", ["a"]⟩] := .nulls "r" ["a"]
  have hnotL : right.From (· ≠ "l") := from_nulls (by decide) ["a"]
  have hnotR : left.From (· ≠ "r") := from_ofValues (by decide) hvalues
  obtain ⟨hleft, hright, hoffset⟩ := join_keeps_lookups hl hr
  refine ⟨⟨hl, hr⟩, hleft "a" "l" hnotL, hright "a" "r" hnotR, ?_⟩
  obtain ⟨place, hplace, hfirst⟩ :=
    hoffset ⟨"r", ["a"]⟩ (by simp) (by decide) (by decide)
  cases hfirst
  exact hplace

end

end TableQuery.Row
