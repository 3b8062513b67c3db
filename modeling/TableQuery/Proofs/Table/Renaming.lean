import Mathlib.Data.List.Forall2
import TableQuery.Proofs.Evaluation.Relational
import TableQuery.Table.Group
import TableQuery.Table.Join
import TableQuery.Table.Sort

/-! # Tables under other names

Two tables that differ in the names of tables only, their own and those in their columns. What is
done to rows and tables is done to both alike, as long as the names of the one are equal where those
of the other are. Where a row says that its tables begin is left out, since no column is found that
way. -/

namespace TableQuery

/-- Names are equal where their counterparts are. -/
def OneToOne (R : String → String → Prop) : Prop :=
  ∀ {n n' m m' : String}, R n n' → R m m' → (n = m ↔ n' = m')

variable (R : String → String → Prop)

structure Column.Renamed (c c' : Column) : Prop where
  table : R c.table c'.table
  label : c.label = c'.label
  name : c.name = c'.name
  index : c.index = c'.index

/-- A value with its column. -/
def Column.RenamedCell (cell cell' : Column × Value) : Prop :=
  cell.1.Renamed R cell'.1 ∧ cell.2 = cell'.2

structure Row.Renamed (row row' : Row) : Prop where
  columns : List.Forall₂ (Column.Renamed R) row.columns row'.columns
  values : row.values = row'.values

structure Table.Renamed (table table' : Table) : Prop where
  name : R table.name table'.name
  fields : table.fields = table'.fields
  rows : List.Forall₂ (Row.Renamed R) table.rows table'.rows

structure Group.Renamed (group group' : Group) : Prop where
  keys : group.keys = group'.keys
  keyRow : group.keyRow.Renamed R group'.keyRow
  rows : List.Forall₂ (Row.Renamed R) group.rows group'.rows

variable {R}

/-! ## Columns and rows -/

namespace Column

theorem Renamed.atIndex {c c' : Column} (h : c.Renamed R c') (i : Nat) :
    (c.atIndex i).Renamed R (c'.atIndex i) := ⟨h.table, h.label, h.name, rfl⟩

theorem Renamed.ofTable {c c' : Column} (h : c.Renamed R c') {n n' : String} (hn : R n n') :
    (c.ofTable n).Renamed R (c'.ofTable n') := ⟨hn, h.label, h.name, h.index⟩

theorem renamed_ofFields {n n' : String} (hn : R n n') (fields : List String) :
    List.Forall₂ (Renamed R) (ofFields n fields) (ofFields n' fields) := by
  rw [List.forall₂_iff_get]
  refine ⟨by simp [ofFields], fun i hi hi' => ?_⟩
  simp only [ofFields, List.get_eq_getElem, List.getElem_mapIdx]
  exact ⟨hn, rfl, rfl, rfl⟩

theorem renamed_atIndex {cells cells' : List (Column × Value)}
    (h : List.Forall₂ (RenamedCell R) cells cells') :
    List.Forall₂ (Renamed R) (cells.mapIdx fun i cell => cell.1.atIndex i)
      (cells'.mapIdx fun i cell => cell.1.atIndex i) := by
  obtain ⟨hlength, hcells⟩ := List.forall₂_iff_get.mp h
  refine List.forall₂_iff_get.mpr ⟨by simp [hlength], fun i hi hi' => ?_⟩
  simp only [List.length_mapIdx] at hi hi'
  simp only [List.get_eq_getElem, List.getElem_mapIdx]
  exact (hcells i hi hi').1.atIndex i

end Column

namespace Row

variable {row row' left left' right right' : Row} {n n' : String}

theorem renamed_refl (row : Row) : row.Renamed Eq row :=
  ⟨List.forall₂_same.mpr fun _ _ => ⟨rfl, rfl, rfl, rfl⟩, rfl⟩

theorem Renamed.join (hl : left.Renamed R left') (hr : right.Renamed R right') :
    (left.join right).Renamed R (left'.join right') where
  columns := by
    refine List.rel_append hl.columns ?_
    rw [hl.columns.length_eq, List.forall₂_map_left_iff, List.forall₂_map_right_iff]
    refine hr.columns.imp fun c c' hc => ?_
    rw [hc.index]
    exact hc.atIndex _
  values := by
    show left.values ++ right.values = left'.values ++ right'.values
    rw [hl.values, hr.values]

theorem Renamed.retag (h : row.Renamed R row') (hn : R n n') :
    (row.retag n).Renamed R (row'.retag n') where
  columns := by
    refine List.forall₂_map_left_iff.mpr (List.forall₂_map_right_iff.mpr ?_)
    exact h.columns.imp fun c c' hc => hc.ofTable hn
  values := h.values

theorem renamed_nulls (hn : R n n') (fields : List String) :
    (nulls n fields).Renamed R (nulls n' fields) := ⟨Column.renamed_ofFields hn fields, rfl⟩

theorem both_ofColumns {columns columns' : List Column}
    (h : List.Forall₂ (Column.Renamed R) columns columns') (values : List Value) :
    Both (Renamed R) (ofColumns n columns values) (ofColumns n' columns' values) := by
  unfold ofColumns
  rw [h.length_eq]
  split
  · exact .ok ⟨h, rfl⟩
  · exact .error

theorem both_ofValues (hn : R n n') (fields : List String) (values : List Value) :
    Both (Renamed R) (ofValues n fields values) (ofValues n' fields values) :=
  both_ofColumns (Column.renamed_ofFields hn fields) values

/-! ## Finding columns -/

theorem Renamed.findColumn (h : row.Renamed R row') (hR : OneToOne R) {table table' : String}
    (ht : R table table') (name : String) {property : Column → Bool}
    (hp : ∀ c c', c.Renamed R c' → property c = property c') :
    Both (Option.Rel (Column.Renamed R)) (row.findColumn name table property)
      (row'.findColumn name table' property) := by
  have hfilter : List.Forall₂ (Column.Renamed R)
      (row.columns.filter fun c => c.table == table && property c)
      (row'.columns.filter fun c => c.table == table' && property c) := by
    refine List.rel_filter (fun c c' hc => ?_) h.columns
    show (c.table == table && property c) = true ↔ (c'.table == table' && property c') = true
    rw [Bool.and_eq_true, Bool.and_eq_true, beq_iff_eq, beq_iff_eq, hR hc.table ht, hp c c' hc]
  unfold Row.findColumn
  generalize row.columns.filter (fun c => c.table == table && property c) = found at hfilter ⊢
  generalize row'.columns.filter (fun c => c.table == table' && property c) = found' at hfilter ⊢
  cases hfilter with
  | nil => exact .ok .none
  | cons hc hrest =>
    cases hrest with
    | nil => exact .ok (.some hc)
    | cons _ _ => exact .error

theorem Renamed.column (h : row.Renamed R row') (hR : OneToOne R) {table table' : String}
    (ht : R table table') (name : String) :
    Both (Option.Rel (Column.Renamed R)) (row.column name table) (row'.column name table') := by
  have hlabel : Both (Option.Rel (Column.Renamed R)) (row.columnByLabel name table)
      (row'.columnByLabel name table') := h.findColumn hR ht name fun c c' hc => by rw [hc.label]
  refine hlabel.bind fun c? c'? hc => ?_
  cases hc with
  | some hc => exact .ok (.some hc)
  | none => exact h.findColumn hR ht name fun c c' hc => by rw [hc.name]

end Row

/-! ## Tables -/

namespace Table

variable {table table' left left' right right' : Table} {n n' : String}

theorem Renamed.content (h : table.Renamed R table') : table.content = table'.content := by
  refine Prod.ext h.fields (map_eq_map_of_forall₂ (h.rows.imp fun _ _ hrow => hrow.values))

theorem Renamed.withRows (h : table.Renamed R table') {rows rows' : List Row}
    (hr : List.Forall₂ (Row.Renamed R) rows rows') :
    (table.withRows rows).Renamed R (table'.withRows rows') := ⟨h.name, h.fields, hr⟩

theorem Renamed.renamed (h : table.Renamed R table') (hn : R n n') :
    (table.renamed n).Renamed R (table'.renamed n') where
  name := hn
  fields := h.fields
  rows := List.forall₂_map_left_iff.mpr (List.forall₂_map_right_iff.mpr
    (h.rows.imp fun _ _ hr => hr.retag hn))

theorem Renamed.nullRow (h : table.Renamed R table') :
    table.nullRow.Renamed R table'.nullRow := by
  unfold Table.nullRow
  rw [h.fields]
  exact Row.renamed_nulls h.name _

theorem Renamed.joinedWith (hl : left.Renamed R left') (hr : right.Renamed R right') (hn : R n n')
    {rows rows' : List Row} (hrows : List.Forall₂ (Row.Renamed R) rows rows') :
    (left.joinedWith right n rows).Renamed R (left'.joinedWith right' n' rows') where
  name := hn
  fields := by
    show left.fields ++ right.fields = left'.fields ++ right'.fields
    rw [hl.fields, hr.fields]
  rows := hrows

theorem Renamed.pairs (hr : right.Renamed R right') {l l' : Row} (hl : l.Renamed R l') :
    List.Forall₂ (Row.Renamed R) (right.rows.map l.join) (right'.rows.map l'.join) :=
  List.forall₂_map_left_iff.mpr (List.forall₂_map_right_iff.mpr
    (hr.rows.imp fun _ _ h => hl.join h))

theorem Renamed.crossJoin (hl : left.Renamed R left') (hr : right.Renamed R right')
    (hn : R n n') : (left.crossJoin right n).Renamed R (left'.crossJoin right' n') :=
  hl.joinedWith hr hn (List.rel_flatMap hl.rows fun _ _ h => hr.pairs h)

/-- The pairs that two conditions keep, if they give the same answers. -/
theorem Renamed.joinRows {m : Type → Type} [Monad m] (L : Relator m) (hr : right.Renamed R right')
    {condition condition' : Row → m Bool}
    (hc : ∀ row row' : Row, row.Renamed R row' → L.Holds Eq (condition row) (condition' row'))
    (outer : Bool) {rows rows' : List Row} (h : List.Forall₂ (Row.Renamed R) rows rows') :
    L.Holds (List.Forall₂ (Row.Renamed R)) (joinRows outer right condition rows)
      (joinRows outer right' condition' rows') := by
  induction h with
  | nil => exact L.pure .nil
  | @cons l l' rest rest' hl _ ih =>
    refine L.bind (L.keepM (hr.pairs hl) hc) fun found found' hfound =>
      L.bind ih fun more more' hmore => L.pure (List.rel_append ?_ hmore)
    have hempty : found.isEmpty = found'.isEmpty := by
      cases hfound with
      | nil => rfl
      | cons _ _ => rfl
    rw [hempty]
    split
    · exact .cons (hl.join hr.nullRow) .nil
    · exact hfound

end Table

/-! ## Sorting -/

theorem forall₂_zip {α β γ δ : Type} {P : α → β → Prop} {Q : γ → δ → Prop} {as : List α}
    {bs : List β} (h : List.Forall₂ P as bs) :
    ∀ {cs : List γ} {ds : List δ}, List.Forall₂ Q cs ds →
      List.Forall₂ (fun p q => P p.1 q.1 ∧ Q p.2 q.2) (as.zip cs) (bs.zip ds) := by
  induction h with
  | nil => exact fun _ => .nil
  | cons hab _ ih =>
    intro cs ds hcd
    cases hcd with
    | nil => exact .nil
    | cons hcd hrest => exact .cons ⟨hab, hcd⟩ (ih hrest)

theorem forall₂_mergeSort {α β : Type} {P : α → β → Prop} {le : α → α → Bool} {le' : β → β → Bool}
    (hle : ∀ a b a' b', P a b → P a' b' → le a a' = le' b b') {as : List α} {bs : List β}
    (h : List.Forall₂ P as bs) : List.Forall₂ P (as.mergeSort le) (bs.mergeSort le') := by
  -- both sides are projections of one sorted list of pairs
  obtain ⟨pairs, hpairs, rfl, rfl⟩ : ∃ pairs : List (α × β), (∀ pair ∈ pairs, P pair.1 pair.2) ∧
      pairs.map (·.1) = as ∧ pairs.map (·.2) = bs := by
    induction h with
    | nil => exact ⟨[], List.forall_mem_nil _, rfl, rfl⟩
    | @cons a b _ _ hab _ ih =>
      obtain ⟨pairs, hpairs, rfl, rfl⟩ := ih
      exact ⟨(a, b) :: pairs, List.forall_mem_cons.mpr ⟨hab, hpairs⟩, rfl, rfl⟩
  have hfst := List.map_mergeSort (r := fun p q : α × β => le p.1 q.1) (s := le) (f := (·.1))
    (l := pairs) fun _ _ _ _ => rfl
  have hsnd := List.map_mergeSort (r := fun p q : α × β => le p.1 q.1) (s := le') (f := (·.2))
    (l := pairs) fun p hp q hq => hle _ _ _ _ (hpairs p hp) (hpairs q hq)
  rw [← hfst, ← hsnd, List.forall₂_map_left_iff, List.forall₂_map_right_iff]
  exact List.forall₂_same.mpr fun pair hm => hpairs pair (List.mem_mergeSort.mp hm)

theorem Table.Renamed.sort {table table' : Table} (h : table.Renamed R table')
    (directions : List Direction) {key key' : Row → Except QueryError (List Value)}
    (hk : ∀ row row' : Row, row.Renamed R row' → Both Eq (key row) (key' row')) :
    Both (Table.Renamed R) (table.sort directions key) (table'.sort directions key') := by
  refine Both.bind (Both.relator.mapM h.rows hk) fun keys keys' hkeys => ?_
  obtain rfl : keys = keys' := List.forall₂_eq_eq_eq ▸ hkeys
  cases mixedKey? keys directions.length with
  | some fault => exact .error
  | none =>
    have hzip := forall₂_zip (List.forall₂_same.mpr fun key (_ : key ∈ keys) => rfl) h.rows
    refine .ok (h.withRows (List.forall₂_map_left_iff.mpr (List.forall₂_map_right_iff.mpr ?_)))
    refine (forall₂_mergeSort (fun a b a' b' hab hab' => ?_) hzip).imp fun _ _ hab => hab.2
    rw [hab.1, hab'.1]

/-! ## Groups -/

theorem Group.both_insert (keys : List GroupKey) {keyRow keyRow' : Except QueryError Row}
    (hk : Both (Row.Renamed R) keyRow keyRow') {row row' : Row} (hr : row.Renamed R row')
    {groups groups' : List Group} (h : List.Forall₂ (Group.Renamed R) groups groups') :
    Both (List.Forall₂ (Group.Renamed R)) (insert keys keyRow row groups)
      (insert keys keyRow' row' groups') := by
  induction h with
  | nil => exact hk.bind fun _ _ h => .ok (.cons ⟨rfl, h, .cons hr .nil⟩ .nil)
  | @cons group group' rest rest' hg hrest ih =>
    unfold Group.insert
    rw [hg.keys]
    split
    · exact .ok (.cons ⟨rfl, hg.keyRow, List.rel_append hg.rows (.cons hr .nil)⟩ hrest)
    · exact ih.map fun _ _ hall => .cons hg hall

theorem both_groupRows {n n' : String} {key key' : Row → Except QueryError (List (Column × Value))}
    (hk : ∀ row row' : Row, row.Renamed R row' →
      Both (List.Forall₂ (Column.RenamedCell R)) (key row) (key' row'))
    {rows rows' : List Row} (h : List.Forall₂ (Row.Renamed R) rows rows') :
    Both (List.Forall₂ (Group.Renamed R)) (groupRows n key rows) (groupRows n' key' rows') := by
  refine Both.relator.foldlM h (fun groups groups' row row' hgroups hrow => ?_) .nil
  refine (hk row row' hrow).bind fun cells cells' hcells => ?_
  have hvalues : cells.map (·.2) = cells'.map (·.2) :=
    map_eq_map_of_forall₂ (hcells.imp fun _ _ hcell => hcell.2)
  refine Both.bind (Both.relator.mapM (Q := Eq) hcells fun _ _ hc => hc.2 ▸ .refl _)
    fun keys keys' hkeys => ?_
  obtain rfl : keys = keys' := List.forall₂_eq_eq_eq ▸ hkeys
  rw [hvalues]
  exact Group.both_insert keys (Row.both_ofColumns (Column.renamed_atIndex hcells) _) hrow hgroups

end TableQuery
