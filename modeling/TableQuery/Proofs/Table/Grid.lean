import Mathlib.Algebra.GroupWithZero.Nat
import Mathlib.Data.List.Forall2
import Mathlib.Data.Set.Basic
import Mathlib.Order.Bounds.Defs
import TableQuery.Table.Grid

/-! # Tables as aligned text

A column is as wide as the longest of its texts in bytes. No text has more characters than bytes, so
each fits its column, and the bars of all lines stand below each other. -/

namespace TableQuery

theorem length_le_utf8ByteSize (s : String) : s.length ≤ s.utf8ByteSize := by
  induction s using String.push_induction with
  | empty => exact Nat.zero_le _
  | push s c ih =>
    rw [String.length_push, String.utf8ByteSize_push]
    exact Nat.add_le_add ih c.utf8Size_pos

/-- A running maximum is the greatest of the numbers it has gone through. -/
theorem isGreatest_foldl_max (n : Nat) (ns : List Nat) :
    IsGreatest {m | m ∈ n :: ns} (ns.foldl max n) := by
  induction ns generalizing n with
  | nil => exact ⟨List.mem_singleton.mpr rfl, fun m hm => Nat.le_of_eq (List.mem_singleton.mp hm)⟩
  | cons first rest ih =>
    obtain ⟨hm, hle⟩ := ih (max n first)
    have hboth := hle List.mem_cons_self
    constructor
    · rcases List.mem_cons.mp hm with hm | hm
      · rw [List.foldl_cons, hm]
        rcases Nat.le_total n first with h | h <;> simp [h]
      · exact List.mem_cons_of_mem _ (List.mem_cons_of_mem _ hm)
    · intro m hm
      rcases List.mem_cons.mp hm with rfl | hm
      · exact Nat.le_trans (Nat.le_max_left _ _) hboth
      rcases List.mem_cons.mp hm with rfl | hm
      · exact Nat.le_trans (Nat.le_max_right _ _) hboth
      · exact hle (List.mem_cons_of_mem _ hm)

/-! ## Ruled lines -/

/-- Where the bar left of a column stands in a line; the last bar stands right of all columns. -/
def barOffset (widths : List Nat) (i : Nat) : Nat := ((widths.take i).map (· + 3)).sum

/-- What stands between the bars around a column. -/
def between (widths : List Nat) (i : Nat) (line : List Char) : List Char :=
  (line.take (barOffset widths (i + 1))).drop (barOffset widths i + 1)

/-- The line is as long as the widths make it, with bars at their offsets. -/
structure Ruled (widths : List Nat) (chars : List Char) : Prop where
  length : chars.length = 1 + (widths.map (· + 3)).sum
  bars : ∀ i ≤ widths.length, chars[barOffset widths i]? = some '|'

/-- A line of boxes, with a bar in front of each and behind the last one. -/
def rule (boxes : List (List Char)) : List Char := '|' :: boxes.flatMap (· ++ ['|'])

theorem rule_cons (box : List Char) (boxes : List (List Char)) :
    rule (box :: boxes) = '|' :: (box ++ rule boxes) := by
  simp [rule]

theorem barOffset_zero (widths : List Nat) : barOffset widths 0 = 0 := rfl

/-- The offsets behind a box are those of the other columns, moved by the box and its bar. -/
theorem barOffset_succ {box : List Char} {width : Nat} (h : box.length = width + 2)
    (widths : List Nat) (i : Nat) :
    barOffset (width :: widths) (i + 1) = box.length + barOffset widths i + 1 := by
  simp only [barOffset, List.take_succ_cons, List.map_cons, List.sum_cons]
  omega

/-- The boxes have the widths of the columns, and room for a space on each side. -/
def Fits (boxes : List (List Char)) (widths : List Nat) : Prop :=
  List.Forall₂ (fun box width => box.length = width + 2) boxes widths

theorem Fits.ruled {boxes : List (List Char)} {widths : List Nat} (h : Fits boxes widths) :
    Ruled widths (rule boxes) := by
  induction h with
  | nil =>
    refine ⟨rfl, fun i hi => ?_⟩
    obtain rfl := Nat.le_zero.mp hi
    rfl
  | @cons box width boxes widths hbox _ ih =>
    rw [rule_cons]
    constructor
    · simp only [List.length_cons, List.length_append, hbox, ih.length, List.map_cons,
        List.sum_cons]
      omega
    · intro i hi
      cases i with
      | zero => rfl
      | succ i =>
        rw [barOffset_succ hbox, List.getElem?_cons_succ,
          List.getElem?_append_right (Nat.le_add_right _ _), Nat.add_sub_cancel_left]
        exact ih.bars i (Nat.le_of_succ_le_succ hi)

theorem Fits.between {boxes : List (List Char)} {widths : List Nat} (h : Fits boxes widths) :
    ∀ {i : Nat} {box : List Char}, boxes[i]? = some box → between widths i (rule boxes) = box := by
  induction h with
  | nil =>
    intro i box hi
    simp at hi
  | @cons first width boxes widths hfirst _ ih =>
    intro i box hi
    rw [rule_cons, TableQuery.between, barOffset_succ hfirst, List.take_succ_cons,
      List.take_length_add_append, List.drop_succ_cons]
    cases i with
    | zero =>
      cases hi
      simp [barOffset_zero]
    | succ i =>
      rw [barOffset_succ hfirst, Nat.add_assoc, List.drop_length_add_append]
      exact ih hi

/-! ## Widths -/

namespace Table

/-- The texts of a column: its field and what its cells show. -/
def columnTexts (table : Table) (i : Nat) : List String :=
  table.fields[i]?.toList ++ table.rows.filterMap fun row => row.values[i]?.map (·.shown)

variable {table : Table}

theorem length_widths (table : Table) : table.widths.length = table.fields.length := by
  simp [widths]

theorem isGreatest_width {i w : Nat} (h : table.widths[i]? = some w) :
    IsGreatest {n | ∃ text ∈ table.columnTexts i, text.utf8ByteSize = n} w := by
  rw [widths, List.getElem?_mapIdx, Option.map_eq_some_iff] at h
  obtain ⟨field, hfield, rfl⟩ := h
  have hsizes : {n | ∃ text ∈ table.columnTexts i, text.utf8ByteSize = n} =
      {n | n ∈ field.utf8ByteSize ::
        ((table.rows.map cells).filterMap (·[i]?)).map (·.utf8ByteSize)} := by
    ext n
    simp [columnTexts, hfield, cells, List.filterMap_map, Function.comp_def, @eq_comm _ n]
  rw [hsizes]
  exact isGreatest_foldl_max _ _

theorem length_le_width {i w : Nat} {text : String} (h : table.widths[i]? = some w)
    (ht : text ∈ table.columnTexts i) : text.length ≤ w :=
  Nat.le_trans (length_le_utf8ByteSize text) ((isGreatest_width h).2 ⟨text, ht, rfl⟩)

/-- The texts stand one in each column. -/
structure Across (table : Table) (texts : List String) : Prop where
  length : texts.length = table.fields.length
  mem : ∀ {i : Nat} {text : String}, texts[i]? = some text → text ∈ table.columnTexts i

theorem across_fields (table : Table) : table.Across table.fields where
  length := rfl
  mem h := by simp [columnTexts, h]

theorem across_cells {row : Row} (h : row ∈ table.rows)
    (hn : row.values.length = table.fields.length) : table.Across (cells row) where
  length := by simpa [cells] using hn
  mem ht := by
    rw [cells, List.getElem?_map] at ht
    exact List.mem_append_right _ (List.mem_filterMap.mpr ⟨row, h, ht⟩)

/-! ## Lines -/

/-- The text stands behind a space, and there are only spaces behind it, at least one. -/
def Boxed (text : String) (box : List Char) : Prop :=
  ∃ n, box = ' ' :: (text.toList ++ List.replicate (n + 1) ' ')

/-- A cell with the spaces around it. -/
def box (text : String) (width : Nat) : List Char := ' ' :: ((padded text width).toList ++ [' '])

theorem boxed_box (text : String) (width : Nat) : Boxed text (box text width) := by
  refine ⟨width - text.length, ?_⟩
  simp [box, padded, List.replicate_succ']

theorem length_box {text : String} {width : Nat} (h : text.length ≤ width) :
    (box text width).length = width + 2 := by
  have hpadded : (padded text width).length = width := by
    simpa [padded] using Nat.add_sub_of_le h
  simp [box, String.length_toList, hpadded]

theorem toList_gridLine (widths : List Nat) (texts : List String) :
    (gridLine widths texts).toList = rule (List.zipWith box texts widths) := by
  have hbox : (fun (text : String) (width : Nat) => " " ++ padded text width ++ " |") =
      fun text width => String.ofList (box text width ++ ['|']) := by
    funext text width
    refine String.toList_inj.mp ?_
    simp [box]
  have hboxes : List.zipWith (fun text width => String.ofList (box text width ++ ['|']))
      texts widths =
      (List.zipWith box texts widths).map fun box => String.ofList (box ++ ['|']) := by
    rw [List.map_zipWith]
  unfold gridLine
  rw [hbox, hboxes, String.toList_append, String.toList_join, List.flatMap_map]
  simp only [String.toList_ofList]
  rfl

theorem toList_dashLine (widths : List Nat) :
    (dashLine widths).toList = rule (widths.map fun width => List.replicate (width + 2) '-') := by
  simp [dashLine, rule, List.flatMap_map]

theorem Across.fits {texts : List String} (h : table.Across texts) :
    Fits (List.zipWith box texts table.widths) table.widths := by
  refine List.forall₂_iff_get.mpr ⟨by simp [h.length, length_widths], fun i _ hi => ?_⟩
  have hi' : i < texts.length := by rwa [h.length, ← length_widths]
  simp only [List.get_eq_getElem, List.getElem_zipWith]
  exact length_box (length_le_width (List.getElem?_eq_getElem hi)
    (h.mem (List.getElem?_eq_getElem hi')))

theorem Across.ruled {texts : List String} (h : table.Across texts) :
    Ruled table.widths (gridLine table.widths texts).toList := by
  rw [toList_gridLine]
  exact h.fits.ruled

theorem Across.boxed {texts : List String} (h : table.Across texts) {i : Nat} {text : String}
    (ht : texts[i]? = some text) :
    Boxed text (between table.widths i (gridLine table.widths texts).toList) := by
  obtain ⟨hi, rfl⟩ := List.getElem?_eq_some_iff.mp ht
  have hw : i < table.widths.length := by rwa [length_widths, ← h.length]
  have hbox : (List.zipWith box texts table.widths)[i]? = some (box texts[i] table.widths[i]) := by
    simp [hi, hw]
  rw [toList_gridLine, h.fits.between hbox]
  exact boxed_box _ _

/-! ## Grids -/

/-- The lines of a table in columns of some widths: each column is as wide as the longest of its
texts in bytes, the bars of all lines stand at the same offsets, and between them stand the fields,
dashes, and row by row what the cells show. -/
structure AlignedLines (table : Table) (widths : List Nat) (header dashes : String)
    (lines : List String) : Prop where
  columns : widths.length = table.fields.length
  widest : ∀ i w, widths[i]? = some w →
    IsGreatest {n | ∃ text ∈ table.columnTexts i, text.utf8ByteSize = n} w
  ruled : ∀ line ∈ header :: dashes :: lines, Ruled widths line.toList
  header : ∀ i field, table.fields[i]? = some field →
    Boxed field (between widths i header.toList)
  dashes : ∀ i w, widths[i]? = some w →
    between widths i dashes.toList = List.replicate (w + 2) '-'
  rows : List.Forall₂ (fun row line => ∀ i v, row.values[i]? = some v →
    Boxed v.shown (between widths i line.toList)) table.rows lines

theorem alignedLines (hrows : ∀ row ∈ table.rows, row.values.length = table.fields.length) :
    table.AlignedLines table.widths (gridLine table.widths table.fields) (dashLine table.widths)
      (table.rows.map fun row => gridLine table.widths (cells row)) := by
  have hdashes : Fits (table.widths.map fun width => List.replicate (width + 2) '-')
      table.widths := by
    rw [Fits, List.forall₂_map_left_iff]
    exact List.forall₂_same.mpr fun w _ => List.length_replicate
  have hcells : ∀ row ∈ table.rows, table.Across (cells row) :=
    fun row hr => across_cells hr (hrows row hr)
  refine ⟨length_widths table, fun i w => isGreatest_width, ?_, fun i field =>
    (across_fields table).boxed, fun i w hw => ?_, ?_⟩
  · intro line hline
    rcases List.mem_cons.mp hline with rfl | hline
    · exact (across_fields table).ruled
    rcases List.mem_cons.mp hline with rfl | hline
    · rw [toList_dashLine]
      exact hdashes.ruled
    · obtain ⟨row, hr, rfl⟩ := List.mem_map.mp hline
      exact (hcells row hr).ruled
  · rw [toList_dashLine]
    exact hdashes.between (by rw [List.getElem?_map, hw]; rfl)
  · rw [List.forall₂_map_right_iff]
    refine List.forall₂_same.mpr fun row hr i v hv => ?_
    exact (hcells row hr).boxed (by rw [cells, List.getElem?_map, hv]; rfl)

/-- Texts stand in the columns of the fields only. -/
theorem exists_width_of_mem (hrows : ∀ row ∈ table.rows, row.values.length = table.fields.length)
    {i : Nat} {text : String} (ht : text ∈ table.columnTexts i) :
    ∃ w, table.widths[i]? = some w := by
  by_contra hnone
  have hi : table.fields.length ≤ i := by
    rw [← length_widths, ← List.getElem?_eq_none_iff]
    exact Option.eq_none_iff_forall_ne_some.mpr fun w hw => hnone ⟨w, hw⟩
  rcases List.mem_append.mp ht with ht | ht
  · simp [List.getElem?_eq_none hi] at ht
  · obtain ⟨row, hr, hv⟩ := List.mem_filterMap.mp ht
    rw [List.getElem?_eq_none (by rwa [hrows row hr])] at hv
    cases hv

theorem grid?_eq_none_iff (hf : table.fields ≠ [])
    (hrows : ∀ row ∈ table.rows, row.values.length = table.fields.length) :
    table.grid? = none ↔ ∃ i, ∃ text ∈ table.columnTexts i, greatestWidth < text.utf8ByteSize := by
  have hempty : table.fields.isEmpty = false := by simpa using hf
  have hwide : table.grid? = none ↔ ∃ w ∈ table.widths, greatestWidth < w := by
    rw [grid?, hempty, if_neg Bool.false_ne_true]
    simp
  rw [hwide]
  constructor
  · rintro ⟨w, hw, hlt⟩
    obtain ⟨i, hi⟩ := List.mem_iff_getElem?.mp hw
    obtain ⟨text, ht, rfl⟩ := (isGreatest_width hi).1
    exact ⟨i, text, ht, hlt⟩
  · rintro ⟨i, text, ht, hlt⟩
    obtain ⟨w, hw⟩ := exists_width_of_mem hrows ht
    have hle := (isGreatest_width hw).2 ⟨text, ht, rfl⟩
    exact ⟨w, List.mem_of_getElem? hw, Nat.lt_of_lt_of_le hlt hle⟩

/-- A table with fields has a grid unless a text of it has more than 65535 bytes. If its rows have
as many values as it has fields, the grid is a header line, a line of dashes and a line for each
row, in order, and all these lines are aligned. -/
theorem grid_aligned {table : Table} (hf : table.fields ≠ [])
    (hrows : ∀ row ∈ table.rows, row.values.length = table.fields.length) :
    (table.grid? = none ↔
      ∃ i, ∃ text ∈ table.columnTexts i, 65535 < text.utf8ByteSize) ∧
    ∀ grid, table.grid? = some grid → ∃ widths header dashes lines,
      grid = String.join ((header :: dashes :: lines).map (· ++ "\n")) ∧
        table.AlignedLines widths header dashes lines := by
  refine ⟨grid?_eq_none_iff hf hrows, fun grid h => ?_⟩
  have hempty : table.fields.isEmpty = false := by simpa using hf
  rw [grid?, hempty, if_neg Bool.false_ne_true] at h
  split at h
  · cases h
    exact ⟨_, _, _, _, rfl, alignedLines hrows⟩
  · cases h

theorem texts_aligned :
    let table : Table := ⟨"t", ["id", "name"], [⟨[("t", 0)], Column.ofFields "t" ["id", "name"],
      [.text "é", .null]⟩]⟩
    table.fields ≠ [] ∧ (∀ row ∈ table.rows, row.values.length = table.fields.length) ∧
      table.grid? = some "| id | name |\n|----|------|\n| é  | null |\n" ∧
      ∃ widths header dashes lines,
        "| id | name |\n|----|------|\n| é  | null |\n" =
            String.join ((header :: dashes :: lines).map (· ++ "\n")) ∧
          table.AlignedLines widths header dashes lines := by
  intro table
  have hf : table.fields ≠ [] := by decide
  have hrows : ∀ row ∈ table.rows, row.values.length = table.fields.length := by decide
  have hgrid : table.grid? = some "| id | name |\n|----|------|\n| é  | null |\n" := by
    decide +kernel
  exact ⟨hf, hrows, hgrid, (grid_aligned hf hrows).2 _ hgrid⟩

/-- A cell of 65536 letters leaves its table without a grid. -/
theorem long_cell_without_grid :
    ¬∀ table : Table, table.fields ≠ [] →
      (∀ row ∈ table.rows, row.values.length = table.fields.length) →
      ∃ widths header dashes lines,
        table.grid? = some (String.join ((header :: dashes :: lines).map (· ++ "\n"))) ∧
          table.AlignedLines widths header dashes lines := by
  intro h
  let cell := String.ofList (List.replicate 65536 'a')
  let table : Table := ⟨"t", ["x"], [⟨[("t", 0)], Column.ofFields "t" ["x"], [.text cell]⟩]⟩
  have hf : table.fields ≠ [] := List.cons_ne_nil _ _
  have hrows : ∀ row ∈ table.rows, row.values.length = table.fields.length :=
    fun row hr => List.mem_singleton.mp hr ▸ rfl
  have hlength : cell.length = 65536 := by rw [String.length_ofList, List.length_replicate]
  have hsize : greatestWidth < cell.utf8ByteSize :=
    Nat.lt_of_lt_of_le (hlength ▸ Nat.lt_succ_self greatestWidth) (length_le_utf8ByteSize cell)
  have hcell : cell ∈ table.columnTexts 0 := List.mem_cons_of_mem _ List.mem_cons_self
  have hnone : table.grid? = none := (grid?_eq_none_iff hf hrows).mpr ⟨0, cell, hcell, hsize⟩
  obtain ⟨widths, header, dashes, lines, hgrid, -⟩ := h table hf hrows
  rw [hnone] at hgrid
  cases hgrid

end Table

end TableQuery
