import TableQuery.Proofs.Evaluation.Relational
import TableQuery.Proofs.Table.Group

/-! # Key rows with a column twice

A key row has a column for each grouping key, so a key that is listed twice puts its column there
twice. The groups stay the same. A reference finds the same value on the key row as before, unless
it means the column that is there twice now; that one it does not find at all. -/

namespace TableQuery

/-! ## Lists with an element once more -/

/-- The second list has the element at one place of the first once more, at another place. -/
def ListedAgain {α : Type} (source place : Nat) (as as' : List α) : Prop :=
  ∃ before a after, as = before ++ after ∧ as' = before ++ a :: after ∧ before.length = place ∧
    as[source]? = some a

namespace ListedAgain

variable {α β : Type} {source place : Nat} {as as' bs bs' : List α}

theorem eq_iff (ha : ListedAgain source place as as') (hb : ListedAgain source place bs bs') :
    as = bs ↔ as' = bs' := by
  obtain ⟨before, a, after, rfl, rfl, hlength, hsource⟩ := ha
  obtain ⟨before', a', after', rfl, rfl, hlength', hsource'⟩ := hb
  have hsame : before.length = before'.length := hlength.trans hlength'.symm
  constructor
  · intro h
    rw [h, hsource'] at hsource
    obtain ⟨rfl, rfl⟩ := List.append_inj h hsame
    cases hsource
    rfl
  · intro h
    obtain ⟨rfl, hrest⟩ := List.append_inj h hsame
    obtain ⟨-, rfl⟩ := List.cons.inj hrest
    rfl

/-- Going through the longer list fails exactly if going through the shorter one does. -/
theorem both_mapM (h : ListedAgain source place as as') (f : α → Except QueryError β) :
    Both (ListedAgain source place) (as.mapM f) (as'.mapM f) := by
  obtain ⟨before, a, after, rfl, rfl, hlength, hsource⟩ := h
  cases hbs : (before ++ after).mapM f with
  | error e =>
    cases hbs' : (before ++ a :: after).mapM f with
    | error e' => exact .error
    | ok bs' =>
      obtain ⟨b, hb, he⟩ := exists_error_of_mapM hbs
      have hm : b ∈ before ++ a :: after := by
        rcases List.mem_append.mp hb with hb | hb <;> simp [hb]
      obtain ⟨c, -, hc⟩ := exists_mem_of_forall₂ (forall₂_of_mapM hbs') hm
      cases he.symm.trans hc
  | ok bs =>
    obtain ⟨b, hb, hab⟩ := forall₂_getElem? (forall₂_of_mapM hbs) hsource
    rw [List.mapM_append] at hbs
    obtain ⟨front, hfront, hbs⟩ := exists_ok_of_bind hbs
    obtain ⟨back, hback, hbs⟩ := exists_ok_of_bind hbs
    cases hbs
    have hbs' : (before ++ a :: after).mapM f = .ok (front ++ b :: back) := by
      rw [List.mapM_append, hfront, List.mapM_cons, hab, hback]
      rfl
    rw [hbs']
    refine .ok ⟨front, b, back, rfl, rfl, ?_, hb⟩
    rw [← hlength]
    exact (forall₂_of_mapM hfront).length_eq.symm

end ListedAgain

/-! ## Groups -/

section

variable {source place : Nat} {table : String}
  {cells cells' : Row → Except QueryError (List (Column × Value))}

/-- The same rows by a longer key. The key row has the same cell once more. -/
structure Group.KeyedAgain (source place : Nat) (table : String)
    (cells : Row → Except QueryError (List (Column × Value))) (group group' : Group) : Prop where
  keys : ListedAgain source place group.keys group'.keys
  rows : group.rows = group'.rows
  keyRow : ∃ first own own', cells first = .ok own ∧ ListedAgain source place own own' ∧
    group.keyRow = Row.ofCells table own ∧ group'.keyRow = Row.ofCells table own'

theorem Group.both_insert_again {new new' : Group} {row : Row} {groups groups' : List Group}
    (h : new.KeyedAgain source place table cells new') (hn : new.rows = [row])
    (hg : List.Forall₂ (KeyedAgain source place table cells) groups groups') :
    Both (List.Forall₂ (KeyedAgain source place table cells))
      (insert new.keys (.ok new.keyRow) row groups)
      (insert new'.keys (.ok new'.keyRow) row groups') := by
  induction hg with
  | nil =>
    obtain ⟨keys, keyRow, rows⟩ := new
    obtain ⟨keys', keyRow', rows'⟩ := new'
    obtain rfl : rows = [row] := hn
    obtain rfl : [row] = rows' := h.rows
    exact .ok (.cons h .nil)
  | @cons group group' rest rest' hgroup hrest ih =>
    unfold insert
    by_cases hk : group.keys = new.keys
    · rw [if_pos hk, if_pos ((hgroup.keys.eq_iff h.keys).mp hk)]
      exact .ok (.cons ⟨hgroup.keys, by rw [hgroup.rows], hgroup.keyRow⟩ hrest)
    · rw [if_neg hk, if_neg fun hk' => hk ((hgroup.keys.eq_iff h.keys).mpr hk')]
      exact ih.map fun _ _ hall => .cons hgroup hall

/-- With a cell of each row once more, rows fall into the same groups. -/
theorem both_groupRows_again
    (h : ∀ row, Both (ListedAgain source place) (cells row) (cells' row)) (rows : List Row) :
    Both (List.Forall₂ (Group.KeyedAgain source place table cells)) (groupRows table cells rows)
      (groupRows table cells' rows) := by
  rw [groupRows_eq, groupRows_eq]
  refine Both.relator.foldlM (List.forall₂_same.mpr fun row _ => rfl)
    (fun groups groups' row _ hgroups hrow => ?_) .nil
  subst hrow
  unfold groupStep
  have hrow := h row
  generalize hc : cells row = outcome at hrow ⊢
  generalize cells' row = outcome' at hrow ⊢
  cases hrow with
  | error => exact .error
  | @ok own own' hown =>
    refine (hown.both_mapM fun cell => GroupKey.ofValue cell.2).bind fun keys keys' hkeys => ?_
    rw [Row.ofColumns_cells, Row.ofColumns_cells]
    have hnew : Group.KeyedAgain source place table cells ⟨keys, Row.ofCells table own, [row]⟩
        ⟨keys', Row.ofCells table own', [row]⟩ := ⟨hkeys, rfl, row, own, own', hc, hown, rfl, rfl⟩
    exact Group.both_insert_again hnew rfl hgroups

end

/-! ## Lookups -/

namespace Column

/-- The column belongs to the table and has the visible name. -/
def labelled (name table : String) (column : Column) : Bool :=
  column.table == table && column.label == name

/-- The column belongs to the table and is called by the name: by its visible name where any of the
table's columns is, or else by its own. -/
def calledIn (columns : List Column) (name table : String) (column : Column) : Bool :=
  column.table == table &&
    if columns.any (labelled name table) then column.label == name else column.name == name

theorem calledIn_congr {columns columns' : List Column} {name table : String}
    (h : columns.any (labelled name table) = columns'.any (labelled name table)) :
    calledIn columns name table = calledIn columns' name table := by
  funext column
  unfold calledIn
  rw [h]

end Column

namespace Row

theorem column_eq (row : Row) (name table : String) :
    row.column name table =
      match row.columns.filter (Column.calledIn row.columns name table) with
      | [] => .ok none
      | [column] => .ok (some column)
      | _ :: _ :: _ => .error (.ambiguousColumn (table ++ "." ++ name)) := by
  have hlabelled : (fun c : Column => c.table == table && c.label == name) =
      Column.labelled name table := rfl
  unfold column columnByLabel columnByName findColumn Column.calledIn
  rw [hlabelled]
  cases hl : row.columns.filter (Column.labelled name table) with
  | nil =>
    have hnone : row.columns.any (Column.labelled name table) = false :=
      List.any_eq_false.mpr (List.filter_eq_nil_iff.mp hl)
    simp only [hnone]
    rfl
  | cons first rest =>
    have hm : first ∈ row.columns.filter (Column.labelled name table) := hl ▸ List.mem_cons_self
    have hsome : row.columns.any (Column.labelled name table) = true :=
      List.any_eq_true.mpr ⟨first, List.mem_filter.mp hm⟩
    simp only [hsome, if_true, hlabelled, hl]
    cases rest <;> rfl

end Row

namespace Scope

/-- What a reference comes to if it is the only one of these that it can mean. -/
def sole {α : Type} (ref : ColumnRef) (table : String) : List α → Except QueryError α
  | [] => .error (.columnNotFound ref.shown)
  | [a] => .ok a
  | _ :: _ :: _ => .error (.ambiguousColumn (table ++ "." ++ ref.name))

theorem sole_map {α β : Type} (f : α → β) (ref : ColumnRef) (table : String) (as : List α) :
    sole ref table (as.map f) = f <$> sole ref table as := by
  rcases as with _ | ⟨a, _ | ⟨b, rest⟩⟩ <;> rfl

theorem sole_of_two {α : Type} {ref : ColumnRef} {table : String} :
    ∀ {as : List α}, 2 ≤ as.length →
      sole ref table as = .error (.ambiguousColumn (table ++ "." ++ ref.name))
  | _ :: _ :: _, _ => rfl

/-- The cells of a key row that a reference can mean, each with its place. -/
def candidates (ref : ColumnRef) (table : String) (own : List (Column × Value)) :
    List ((Column × Value) × Nat) :=
  own.zipIdx.filter fun cell => Column.calledIn (own.map (·.1)) ref.name table cell.1.1

theorem mem_candidates {ref : ColumnRef} {table : String} {own : List (Column × Value)}
    {cell : (Column × Value) × Nat} (h : candidates ref table own = [cell]) :
    own[cell.2]? = some cell.1 ∧
      Column.calledIn (own.map (·.1)) ref.name table cell.1.1 = true := by
  have hm : cell ∈ candidates ref table own := h ▸ List.mem_cons_self
  obtain ⟨hcell, hcalled⟩ := List.mem_filter.mp hm
  exact ⟨List.mem_zipIdx_iff_getElem?.mp hcell, hcalled⟩

theorem candidates_map_fst (ref : ColumnRef) (table : String) (own : List (Column × Value)) :
    (candidates ref table own).map (·.1) =
      own.filter fun cell => Column.calledIn (own.map (·.1)) ref.name table cell.1 := by
  conv_rhs => rw [← List.zipIdx_map_fst 0 own, List.filter_map, List.zipIdx_map_fst]
  rfl

theorem columns_ofCells (name : String) (own : List (Column × Value)) :
    (Row.ofCells name own).columns = own.zipIdx.map fun cell => cell.1.1.atIndex cell.2 :=
  List.mapIdx_eq_zipIdx_map

theorem calledIn_ofCells (name label table : String) (own : List (Column × Value)) :
    Column.calledIn (Row.ofCells name own).columns label table =
      Column.calledIn (own.map (·.1)) label table := by
  refine Column.calledIn_congr ?_
  rw [columns_ofCells, List.any_map, List.any_map, ← List.zipIdx_map_fst 0 own, List.any_map,
    List.zipIdx_map_fst]
  rfl

theorem resolve_ofCells_eq (scope : Scope) (ref : ColumnRef) (name : String)
    (own : List (Column × Value)) :
    scope.resolve ref (Row.ofCells name own) = (do
      let table ← scope.tableOf ref
      (fun cell => (cell.1.1.atIndex cell.2, cell.1.2)) <$>
        sole ref table (candidates ref table own)) := by
  unfold resolve
  refine bind_congr fun table => ?_
  have hcolumns : (Row.ofCells name own).columns.filter
      (Column.calledIn (Row.ofCells name own).columns ref.name table) =
      (candidates ref table own).map fun cell => cell.1.1.atIndex cell.2 := by
    rw [calledIn_ofCells, columns_ofCells, List.filter_map]
    rfl
  have hvalue : ∀ cell ∈ candidates ref table own,
      (Row.ofCells name own).values[cell.2]? = some cell.1.2 := by
    intro cell hc
    have hplace := List.mem_zipIdx_iff_getElem?.mp (List.mem_filter.mp hc).1
    exact (List.getElem?_map ..).trans (by rw [hplace]; rfl)
  rw [Row.column_eq, hcolumns]
  generalize candidates ref table own = found at hvalue ⊢
  rcases found with _ | ⟨cell, _ | ⟨other, rest⟩⟩
  · rfl
  · have hcell := hvalue cell List.mem_cons_self
    simp only [List.map_cons, List.map_nil, Bind.bind, Except.bind, Column.atIndex, hcell]
    rfl
  · rfl

theorem resolve_ofCells_ok {scope : Scope} {ref : ColumnRef} {name : String}
    {own : List (Column × Value)} {found : Column × Value} :
    scope.resolve ref (Row.ofCells name own) = .ok found ↔
      ∃ table cell, scope.tableOf ref = .ok table ∧ candidates ref table own = [cell] ∧
        found = (cell.1.1.atIndex cell.2, cell.1.2) := by
  rw [resolve_ofCells_eq]
  constructor
  · intro h
    obtain ⟨table, ht, h⟩ := exists_ok_of_bind h
    generalize hc : candidates ref table own = cells at h
    rcases cells with _ | ⟨cell, _ | ⟨other, rest⟩⟩
    · cases h
    · cases h
      exact ⟨table, cell, ht, hc, rfl⟩
    · cases h
  · rintro ⟨table, cell, ht, hc, rfl⟩
    rw [ht]
    show _ <$> sole ref table (candidates ref table own) = _
    rw [hc]
    rfl

/-- The values alone do not depend on the places. -/
theorem value_ofCells_eq (scope : Scope) (ref : ColumnRef) (name : String)
    (own : List (Column × Value)) :
    (·.2) <$> scope.resolve ref (Row.ofCells name own) = (do
      let table ← scope.tableOf ref
      (·.2) <$> sole ref table
        (own.filter fun cell => Column.calledIn (own.map (·.1)) ref.name table cell.1)) := by
  rw [resolve_ofCells_eq, map_bind]
  refine bind_congr fun table => ?_
  rw [← candidates_map_fst, sole_map, Functor.map_map, Functor.map_map]

end Scope

/-! ## Lookups with a cell there twice -/

theorem Row.filter_of_column {row : Row} {name table : String} {column : Column}
    (h : row.column name table = .ok (some column)) :
    row.columns.filter (Column.calledIn row.columns name table) = [column] := by
  rw [column_eq] at h
  generalize row.columns.filter (Column.calledIn row.columns name table) = found at h ⊢
  rcases found with _ | ⟨first, _ | ⟨second, rest⟩⟩
  · cases h
  · cases h
    rfl
  · cases h

/-- The cells of a key row, which all come from one row; one of them is the one that `ref` means
there. -/
structure KeyCells (scope : Scope) (ref : ColumnRef) (own : List (Column × Value))
    (cell : Column × Value) (first : Row) : Prop where
  keys : ∀ c ∈ own, ∃ key, scope.resolve key first = .ok c
  found : scope.resolve ref first = .ok cell
  mem : cell ∈ own

namespace KeyCells

variable {scope : Scope} {ref col : ColumnRef} {own before after : List (Column × Value)}
  {cell : Column × Value} {first : Row} {name table : String}

/-- Among the cells `ref` can only mean its own, as on the row that they come from. -/
theorem calledIn_iff (h : KeyCells scope ref own cell first) : ∀ c ∈ own,
    (Column.calledIn (own.map (·.1)) ref.name cell.1.table c.1 = true ↔ c = cell) := by
  obtain ⟨-, hcolumn, hvalue⟩ := Scope.resolve_eq_ok.mp h.found
  have honly := Row.filter_of_column hcolumn
  have hself : Column.calledIn first.columns ref.name cell.1.table cell.1 = true := by
    have hm : cell.1 ∈ first.columns.filter
        (Column.calledIn first.columns ref.name cell.1.table) := honly ▸ List.mem_cons_self
    exact (List.mem_filter.mp hm).2
  have hcells : ∀ c ∈ own, c.1 ∈ first.columns ∧ first.values[c.1.index]? = some c.2 := by
    intro c hc
    obtain ⟨key, hkey⟩ := h.keys c hc
    exact ⟨(Scope.resolve_ok hkey).2, (Scope.resolve_eq_ok.mp hkey).2.2⟩
  have hany : (own.map (·.1)).any (Column.labelled ref.name cell.1.table) =
      first.columns.any (Column.labelled ref.name cell.1.table) := by
    refine Bool.eq_iff_iff.mpr ⟨fun ha => ?_, fun ha => ?_⟩
    · obtain ⟨column, hm, hp⟩ := List.any_eq_true.mp ha
      obtain ⟨c, hc, rfl⟩ := List.mem_map.mp hm
      exact List.any_eq_true.mpr ⟨c.1, (hcells c hc).1, hp⟩
    · -- a name that is the label of some column is the label of the column that it finds
      unfold Column.calledIn at hself
      rw [ha] at hself
      exact List.any_eq_true.mpr ⟨cell.1, List.mem_map.mpr ⟨cell, h.mem, rfl⟩, hself⟩
  intro c hc
  rw [Column.calledIn_congr hany]
  refine ⟨fun hp => ?_, fun he => he ▸ hself⟩
  have hm : c.1 ∈ first.columns.filter (Column.calledIn first.columns ref.name cell.1.table) :=
    List.mem_filter.mpr ⟨(hcells c hc).1, hp⟩
  rw [honly] at hm
  have hcolumn : c.1 = cell.1 := List.mem_singleton.mp hm
  have hc := (hcells c hc).2
  rw [hcolumn, hvalue] at hc
  exact Prod.ext hcolumn (Option.some.inj hc).symm

/-- Where a reference can mean only the cell of `ref`, both mean it. -/
theorem resolve_both (h : KeyCells scope ref own cell first) (ht : scope.tableOf col = .ok table)
    (hsole : own.filter (fun c => Column.calledIn (own.map (·.1)) col.name table c.1) = [cell]) :
    ∃ found, scope.resolve col (Row.ofCells name own) = .ok found ∧
      scope.resolve ref (Row.ofCells name own) = .ok found := by
  rw [← Scope.candidates_map_fst] at hsole
  obtain ⟨place, hplace, hcell⟩ := List.map_eq_singleton_iff.mp hsole
  have hcol : Column.calledIn (own.map (·.1)) col.name table cell.1 = true := by
    have hm : place ∈ Scope.candidates col table own := hplace ▸ List.mem_cons_self
    exact hcell ▸ (List.mem_filter.mp hm).2
  have hself := (h.calledIn_iff cell h.mem).mpr rfl
  have hnarrow : ∀ c ∈ own.zipIdx,
      Column.calledIn (own.map (·.1)) ref.name cell.1.table c.1.1 =
        (Column.calledIn (own.map (·.1)) ref.name cell.1.table c.1.1 &&
          Column.calledIn (own.map (·.1)) col.name table c.1.1) := by
    intro c hc
    refine Bool.eq_iff_iff.mpr ⟨fun hp => ?_, fun hp => (Bool.and_eq_true_iff.mp hp).1⟩
    have he := (h.calledIn_iff c.1 (List.fst_mem_of_mem_zipIdx hc)).mp hp
    rw [he, hself, hcol]
    rfl
  have href : Scope.candidates ref cell.1.table own = [place] := by
    unfold Scope.candidates
    rw [List.filter_congr hnarrow, ← List.filter_filter]
    show (Scope.candidates col table own).filter _ = _
    rw [hplace, List.filter_singleton, hcell, hself]
    rfl
  exact ⟨_, Scope.resolve_ofCells_ok.mpr ⟨table, place, ht, hplace, rfl⟩,
    Scope.resolve_ofCells_ok.mpr
      ⟨cell.1.table, place, (Scope.resolve_eq_ok.mp h.found).1, href, rfl⟩⟩

/-- With a cell there twice, names call the same columns. -/
theorem calledIn_again (hm : cell ∈ before ++ after) (name table : String) :
    Column.calledIn ((before ++ cell :: after).map (·.1)) name table =
      Column.calledIn ((before ++ after).map (·.1)) name table := by
  have hmem : ∀ c, c ∈ before ++ cell :: after ↔ c ∈ before ++ after := by
    intro c
    simp only [List.mem_append, List.mem_cons] at hm ⊢
    grind
  refine Column.calledIn_congr (Bool.eq_iff_iff.mpr ?_)
  simp only [List.any_eq_true, List.mem_map, hmem]

theorem sole_called (h : KeyCells scope ref own cell first) {property : Column → Bool}
    (hp : property cell.1 = true) (hl : (own.filter fun c => property c.1).length < 2) :
    (own.filter fun c => property c.1) = [cell] := by
  have hm : cell ∈ own.filter fun c => property c.1 := List.mem_filter.mpr ⟨h.mem, hp⟩
  obtain ⟨c, hc⟩ : ∃ c, (own.filter fun c => property c.1) = [c] :=
    List.length_eq_one_iff.mp (by have := List.length_pos_of_mem hm; omega)
  rw [hc] at hm ⊢
  rw [List.mem_singleton.mp hm]

theorem two_called (h : KeyCells scope ref (before ++ after) cell first) {property : Column → Bool}
    (hp : property cell.1 = true) :
    2 ≤ ((before ++ cell :: after).filter fun c => property c.1).length := by
  have hpos : 0 < ((before ++ after).filter fun c => property c.1).length :=
    List.length_pos_of_mem (List.mem_filter.mpr ⟨h.mem, hp⟩)
  rw [List.filter_append, List.length_append] at hpos ⊢
  rw [List.filter_cons_of_pos (by simpa using hp), List.length_cons]
  omega

/-- The cell that is there twice now is not found at all. -/
theorem not_resolve_again (h : KeyCells scope ref (before ++ after) cell first)
    {found : Column × Value}
    (hcol : scope.resolve col (Row.ofCells name (before ++ after)) = .ok found)
    (href : scope.resolve ref (Row.ofCells name (before ++ after)) = .ok found)
    (other : Column × Value) :
    scope.resolve col (Row.ofCells name (before ++ cell :: after)) ≠ .ok other := by
  obtain ⟨table, place, ht, hplace, rfl⟩ := Scope.resolve_ofCells_ok.mp hcol
  obtain ⟨table', place', ht', hplace', hsame⟩ := Scope.resolve_ofCells_ok.mp href
  obtain ⟨hm, hcalled⟩ := Scope.mem_candidates hplace
  obtain ⟨hm', hcalled'⟩ := Scope.mem_candidates hplace'
  have hindex : place.2 = place'.2 := congrArg (fun cell : Column × Value => cell.1.index) hsame
  have hcell : place.1 = cell := by
    cases ht'.symm.trans (Scope.resolve_eq_ok.mp h.found).1
    rw [hindex, hm'] at hm
    rw [← Option.some.inj hm]
    exact (h.calledIn_iff place'.1 (List.mem_of_getElem? hm')).mp hcalled'
  intro hother
  obtain ⟨table'', place'', ht'', hplace'', -⟩ := Scope.resolve_ofCells_ok.mp hother
  cases ht.symm.trans ht''
  have hsole := congrArg (List.map (·.1)) hplace''
  rw [Scope.candidates_map_fst, calledIn_again h.mem] at hsole
  have htwo := h.two_called (hcell ▸ hcalled)
  rw [hsole] at htwo
  exact absurd htwo (by simp)

/-- Any other cell, and any failure to find one, is as before. -/
theorem value_again (h : KeyCells scope ref (before ++ after) cell first)
    (hcol : ∀ found, scope.resolve col (Row.ofCells name (before ++ after)) = .ok found →
      scope.resolve ref (Row.ofCells name (before ++ after)) ≠ .ok found) :
    (·.2) <$> scope.resolve col (Row.ofCells name (before ++ cell :: after)) =
      (·.2) <$> scope.resolve col (Row.ofCells name (before ++ after)) := by
  rw [Scope.value_ofCells_eq, Scope.value_ofCells_eq]
  cases ht : scope.tableOf col with
  | error e => rfl
  | ok table =>
    show _ <$> Scope.sole col table _ = _ <$> Scope.sole col table _
    refine congrArg _ ?_
    rw [calledIn_again h.mem]
    cases hcell : Column.calledIn ((before ++ after).map (·.1)) col.name table cell.1 with
    | false =>
      rw [List.filter_append, List.filter_cons_of_neg (by simpa using hcell), List.filter_append]
    | true =>
      have hseveral : 2 ≤ ((before ++ after).filter fun c =>
          Column.calledIn ((before ++ after).map (·.1)) col.name table c.1).length := by
        by_contra hfew
        obtain ⟨found, hfound, hboth⟩ := h.resolve_both ht (h.sole_called hcell (by omega))
        exact hcol found hfound hboth
      rw [Scope.sole_of_two (h.two_called hcell), Scope.sole_of_two hseveral]

end KeyCells

end TableQuery
