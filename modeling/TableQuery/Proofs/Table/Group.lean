import Mathlib.Algebra.GroupWithZero.Nat
import TableQuery.Proofs.Table.Uniform

/-! # Groups of rows

Rows are sorted into groups one after the other. What the groups are at the end can be said without
the order of events: there is one for each key that occurs, in the order of first occurrence, and it
has all rows with that key in their own order. -/

namespace TableQuery

/-- What rows are grouped by: the cells of a row as keys. -/
def groupKeys (cells : Row → Except QueryError (List (Column × Value))) (row : Row) :
    Except QueryError (List GroupKey) := do
  (← cells row).mapM fun cell => GroupKey.ofValue cell.2

/-- The row that has these cells for its only ones. -/
def Row.ofCells (table : String) (cells : List (Column × Value)) : Row :=
  ⟨[(table, 0)], cells.mapIdx fun i cell => cell.1.atIndex i, cells.map (·.2)⟩

theorem Row.ofColumns_cells (table : String) (cells : List (Column × Value)) :
    ofColumns table (cells.mapIdx fun i cell => cell.1.atIndex i) (cells.map (·.2)) =
      .ok (ofCells table cells) := by
  unfold ofColumns
  rw [if_pos (by simp)]
  rfl

theorem Row.indexed_ofCells (table : String) (cells : List (Column × Value)) :
    (ofCells table cells).Indexed := by
  intro column hc
  obtain ⟨i, hi, rfl⟩ := List.mem_mapIdx.mp hc
  simpa [ofCells, Column.atIndex] using hi

/-- What one more row makes of the groups. -/
def groupStep (table : String) (cells : Row → Except QueryError (List (Column × Value)))
    (groups : List Group) (row : Row) : Except QueryError (List Group) := do
  let own ← cells row
  let keys ← own.mapM fun cell => GroupKey.ofValue cell.2
  Group.insert keys (Row.ofColumns table (own.mapIdx fun i cell => cell.1.atIndex i)
    (own.map (·.2))) row groups

theorem groupRows_eq (table : String) (cells : Row → Except QueryError (List (Column × Value)))
    (rows : List Row) : groupRows table cells rows = rows.foldlM (groupStep table cells) [] := rfl

/-- What has been seen already is left out. -/
theorem eraseDups_concat {α : Type} [BEq α] [LawfulBEq α] (seen : List α) (a : α)
    [Decidable (a ∈ seen)] :
    (seen ++ [a]).eraseDups = seen.eraseDups ++ if a ∈ seen then [] else [a] := by
  rw [List.eraseDups_append, List.cons_removeAll]
  by_cases hm : a ∈ seen
  · rw [if_pos hm, if_neg (by simpa using hm)]
    rfl
  · rw [if_neg hm, if_pos (by simpa using hm)]
    rfl

/-! ## One row -/

namespace Group

variable {keys : List GroupKey}

/-- A row whose key is known goes to the end of the first group with it. -/
theorem insert_of_mem (keyRow : Except QueryError Row) (row : Row) : ∀ {groups : List Group},
    keys ∈ groups.map (·.keys) → ∃ before group after,
      groups = before ++ group :: after ∧ group.keys = keys ∧
        insert keys keyRow row groups =
          .ok (before ++ { group with rows := group.rows ++ [row] } :: after)
  | [], hm => by simp at hm
  | first :: rest, hm => by
    unfold insert
    by_cases hk : first.keys = keys
    · exact ⟨[], first, rest, rfl, hk, if_pos hk⟩
    · have hr : keys ∈ rest.map (·.keys) :=
        (List.mem_cons.mp hm).resolve_left fun he => hk he.symm
      obtain ⟨before, group, after, rfl, hg, hi⟩ := insert_of_mem keyRow row hr
      refine ⟨first :: before, group, after, rfl, hg, ?_⟩
      rw [if_neg hk, hi]
      rfl

/-- A row whose key is new makes a group of its own. -/
theorem insert_of_not_mem {keyRow row : Row} : ∀ {groups : List Group}, keys ∉ groups.map (·.keys) →
    insert keys (.ok keyRow) row groups = .ok (groups ++ [⟨keys, keyRow, [row]⟩])
  | [], _ => rfl
  | group :: rest, hm => by
    rw [List.map_cons, List.mem_cons, not_or] at hm
    unfold insert
    rw [if_neg fun he => hm.1 he.symm, insert_of_not_mem hm.2]
    rfl

end Group

/-! ## All rows -/

/-- The groups are those of the rows, when `key` is the key of a row. -/
structure Grouping (table : String) (cells : Row → Except QueryError (List (Column × Value)))
    (key : Row → List GroupKey) (seen : List Row) (groups : List Group) : Prop where
  ok : ∀ row ∈ seen, groupKeys cells row = .ok (key row)
  distinct : (groups.map (·.keys)).Nodup
  keys : groups.map (·.keys) = (seen.map key).eraseDups
  rows : ∀ group ∈ groups, group.rows = seen.filter fun row => key row = group.keys
  /-- The key row has the cells of the first row. -/
  keyRow : ∀ group ∈ groups, ∃ first own, group.rows.head? = some first ∧ cells first = .ok own ∧
    group.keyRow = Row.ofCells table own
  count : (groups.map (·.rows.length)).sum = seen.length

namespace Grouping

variable {table : String} {cells : Row → Except QueryError (List (Column × Value))}
  {key : Row → List GroupKey} {seen : List Row} {groups : List Group} {row : Row}

theorem nil : Grouping table cells key [] [] where
  ok := nofun
  distinct := List.nodup_nil
  keys := rfl
  rows := nofun
  keyRow := nofun
  count := rfl

theorem ok_append (h : Grouping table cells key seen groups)
    (hok : groupKeys cells row = .ok (key row)) :
    ∀ other ∈ seen ++ [row], groupKeys cells other = .ok (key other) := by
  intro other ho
  rcases List.mem_append.mp ho with ho | ho
  · exact h.ok other ho
  · cases List.mem_singleton.mp ho
    exact hok

/-- One more row does not change the groups of other keys. -/
theorem rows_append (h : Grouping table cells key seen groups) {group : Group}
    (hg : group ∈ groups) (hne : group.keys ≠ key row) :
    group.rows = (seen ++ [row]).filter fun other => key other = group.keys := by
  rw [List.filter_append, ← h.rows group hg, List.filter_cons_of_neg (by simpa using hne.symm)]
  simp

theorem keys_append : ((seen ++ [row]).map key).eraseDups =
    (seen.map key).eraseDups ++ if key row ∈ seen.map key then [] else [key row] := by
  rw [List.map_append, List.map_cons, List.map_nil, eraseDups_concat]

theorem insert_known {before after : List Group} {group : Group}
    (h : Grouping table cells key seen (before ++ group :: after))
    (hok : groupKeys cells row = .ok (key row)) (hk : group.keys = key row) :
    Grouping table cells key (seen ++ [row])
      (before ++ { group with rows := group.rows ++ [row] } :: after) := by
  have hm : ∀ other, other ∈ before ∨ other ∈ after → other ∈ before ++ group :: after := by
    intro other ho
    rcases ho with ho | ho
    · exact List.mem_append_left _ ho
    · exact List.mem_append_right _ (List.mem_cons_of_mem _ ho)
  have hg : group ∈ before ++ group :: after :=
    List.mem_append_right _ List.mem_cons_self
  have hcases : ∀ {P : Group → Prop}, P { group with rows := group.rows ++ [row] } →
      (∀ other, other ∈ before ∨ other ∈ after → P other) →
      ∀ other ∈ before ++ { group with rows := group.rows ++ [row] } :: after, P other := by
    intro P hp ho other hmem
    rcases List.mem_append.mp hmem with hb | hc
    · exact ho other (.inl hb)
    · rcases List.mem_cons.mp hc with rfl | ha
      · exact hp
      · exact ho other (.inr ha)
  have hkeys : (before ++ { group with rows := group.rows ++ [row] } :: after).map (·.keys) =
      (before ++ group :: after).map (·.keys) := by
    simp
  refine ⟨h.ok_append hok, ?_, ?_, ?_, ?_, ?_⟩
  · rw [hkeys]
    exact h.distinct
  · have hs : key row ∈ seen.map key := by
      rw [← List.mem_eraseDups, ← h.keys, ← hk]
      exact List.mem_map.mpr ⟨group, hg, rfl⟩
    rw [hkeys, h.keys, keys_append, if_pos hs, List.append_nil]
  · refine hcases ?_ fun other ho => h.rows_append (hm other ho) ?_
    · rw [List.filter_append, ← h.rows group hg, List.filter_cons_of_pos (by simpa using hk.symm)]
      rfl
    · have hd := h.distinct
      rw [List.map_append, List.map_cons, List.nodup_append, List.nodup_cons] at hd
      rw [← hk]
      rcases ho with hb | ha
      · exact hd.2.2 _ (List.mem_map.mpr ⟨other, hb, rfl⟩) _ List.mem_cons_self
      · exact fun he => hd.2.1.1 (List.mem_map.mpr ⟨other, ha, he⟩)
  · refine hcases ?_ fun other ho => h.keyRow other (hm other ho)
    obtain ⟨first, own, hf, hc, hrow⟩ := h.keyRow group hg
    refine ⟨first, own, ?_, hc, hrow⟩
    rw [List.head?_append, hf]
    rfl
  · have hc := h.count
    simp only [List.map_append, List.map_cons, List.sum_append, List.sum_cons,
      List.length_append, List.length_cons, List.length_nil] at hc ⊢
    omega

theorem insert_new (h : Grouping table cells key seen groups)
    (hok : groupKeys cells row = .ok (key row)) {own : List (Column × Value)}
    (hc : cells row = .ok own) (hk : key row ∉ groups.map (·.keys)) :
    Grouping table cells key (seen ++ [row])
      (groups ++ [⟨key row, Row.ofCells table own, [row]⟩]) := by
  have hs : key row ∉ seen.map key := by
    rw [← List.mem_eraseDups, ← h.keys]
    exact hk
  have hne : ∀ group ∈ groups, group.keys ≠ key row := by
    intro group hg he
    exact hk (List.mem_map.mpr ⟨group, hg, he⟩)
  refine ⟨h.ok_append hok, ?_, ?_, ?_, ?_, ?_⟩
  · rw [List.map_append, List.nodup_append]
    refine ⟨h.distinct, by simp, fun keys hm other ho => ?_⟩
    cases List.mem_singleton.mp ho
    rintro rfl
    exact hk hm
  · rw [List.map_append, h.keys, keys_append, if_neg hs]
    rfl
  · intro group hg
    rcases List.mem_append.mp hg with hg | hg
    · exact h.rows_append hg (hne group hg)
    · cases List.mem_singleton.mp hg
      have hnone : (seen.filter fun other => key other = key row) = [] := by
        refine List.filter_eq_nil_iff.mpr fun other ho he => hs ?_
        exact List.mem_map.mpr ⟨other, ho, by simpa using he⟩
      rw [List.filter_append, hnone]
      simp
  · intro group hg
    rcases List.mem_append.mp hg with hg | hg
    · exact h.keyRow group hg
    · cases List.mem_singleton.mp hg
      exact ⟨row, own, rfl, hc, rfl⟩
  · have hcount := h.count
    simp only [List.map_append, List.map_cons, List.map_nil, List.sum_append, List.sum_cons,
      List.sum_nil, List.length_append, List.length_cons, List.length_nil] at hcount ⊢
    omega

theorem step (h : Grouping table cells key seen groups) {groups' : List Group}
    (hkey : ∀ keys, groupKeys cells row = .ok keys → key row = keys)
    (hs : groupStep table cells groups row = .ok groups') :
    Grouping table cells key (seen ++ [row]) groups' := by
  obtain ⟨own, hc, hs⟩ := exists_ok_of_bind hs
  obtain ⟨keys, hk, hs⟩ := exists_ok_of_bind hs
  have hok : groupKeys cells row = .ok keys := by
    unfold groupKeys
    rw [hc]
    exact hk
  obtain rfl := hkey keys hok
  rw [Row.ofColumns_cells] at hs
  by_cases hm : key row ∈ groups.map (·.keys)
  · obtain ⟨before, group, after, rfl, hg, hi⟩ :=
      Group.insert_of_mem (.ok (Row.ofCells table own)) row hm
    rw [hi] at hs
    cases hs
    exact h.insert_known hok hg
  · rw [Group.insert_of_not_mem hm] at hs
    cases hs
    exact h.insert_new hok hc hm

theorem foldlM : ∀ {rest seen : List Row} {groups groups' : List Group},
    Grouping table cells key seen groups →
    (∀ row ∈ rest, ∀ keys, groupKeys cells row = .ok keys → key row = keys) →
    rest.foldlM (groupStep table cells) groups = .ok groups' →
    Grouping table cells key (seen ++ rest) groups'
  | [], seen, groups, groups', h, _, hf => by
    cases hf
    rwa [List.append_nil]
  | row :: rest, seen, groups, groups', h, hkey, hf => by
    rw [List.foldlM_cons] at hf
    obtain ⟨next, hn, hf⟩ := exists_ok_of_bind hf
    have hnext := h.step (hkey row List.mem_cons_self) hn
    rw [List.append_cons]
    exact foldlM hnext (fun other ho => hkey other (List.mem_cons_of_mem _ ho)) hf

theorem mem_rows (h : Grouping table cells key seen groups) {group : Group}
    (hg : group ∈ groups) (hr : row ∈ group.rows) : row ∈ seen := by
  rw [h.rows group hg] at hr
  exact (List.mem_filter.mp hr).1

theorem indexed_keyRow (h : Grouping table cells key seen groups) {group : Group}
    (hg : group ∈ groups) : group.keyRow.Indexed := by
  obtain ⟨_, own, _, _, hrow⟩ := h.keyRow group hg
  rw [hrow]
  exact Row.indexed_ofCells table own

end Grouping

/-- The key of a row, for rows that have one. -/
def keyOf (cells : Row → Except QueryError (List (Column × Value))) (row : Row) : List GroupKey :=
  (groupKeys cells row).toOption.getD []

theorem groupRows_ok {table : String} {cells : Row → Except QueryError (List (Column × Value))}
    {rows : List Row} {groups : List Group} (h : groupRows table cells rows = .ok groups) :
    Grouping table cells (keyOf cells) rows groups := by
  rw [groupRows_eq] at h
  refine Grouping.foldlM .nil (fun row _ keys hk => ?_) h
  unfold keyOf
  rw [hk]
  rfl

end TableQuery
