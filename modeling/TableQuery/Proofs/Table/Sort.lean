import Mathlib.Data.List.Forall2
import TableQuery.Proofs.Evaluation.Loop
import TableQuery.Table.Sort

/-! # Sorted tables

The sort order compares values of one type, and nulls with everything. A total order on all values
agrees with it there; so on rows whose keys were not refused for their types, keys compare by a
total order, and a sort leaves no two rows in the wrong order. -/

namespace TableQuery

/-! ## Values -/

namespace Value

/-- The two values have one type, or one of them is null. -/
def Alike (a b : Value) : Prop := a.isNull ∨ b.isNull ∨ a.kind = b.kind

def rank : Value → Nat
  | null => 0
  | number _ => 1
  | text _ => 2
  | boolean _ => 3

/-- The sort order, with values of different types in the order of their types. -/
def sortOrder (a b : Value) : Ordering := (a.sortCompare? b).getD (compare a.rank b.rank)

theorem sortCompare?_of_alike {a b : Value} (h : a.Alike b) :
    (a.sortCompare? b).getD .eq = a.sortOrder b := by
  unfold sortOrder
  cases a <;> cases b <;> simp_all [Alike, sortCompare?, isNull, kind]

theorem sortOrder_swap (a b : Value) : a.sortOrder b = (b.sortOrder a).swap := by
  cases a <;> cases b
  case number.number => exact Std.OrientedOrd.eq_swap
  case text.text => exact Std.OrientedOrd.eq_swap
  case boolean.boolean => exact Std.OrientedOrd.eq_swap
  all_goals rfl

instance : Std.OrientedCmp sortOrder where
  eq_swap := sortOrder_swap _ _

instance : Std.TransCmp sortOrder where
  isLE_trans {a b c} hab hbc := by
    cases a <;> cases b <;> cases c
    case number.number.number => exact Std.TransOrd.isLE_trans hab hbc
    case text.text.text => exact Std.TransOrd.isLE_trans hab hbc
    case boolean.boolean.boolean => exact Std.TransOrd.isLE_trans hab hbc
    -- two of the values have different types, and nothing else counts
    all_goals first
      | rfl
      | exact nomatch (show false = true from hab)
      | exact nomatch (show false = true from hbc)

end Value

/-! ## Keys -/

/-- The order of two values in a direction. -/
def Direction.order (d : Direction) (a b : Value) : Ordering := d.apply (a.sortOrder b)

instance (d : Direction) : Std.TransCmp d.order := by
  cases d with
  | ascending => exact inferInstanceAs (Std.TransCmp Value.sortOrder)
  | descending =>
    have hswap : Direction.descending.order = fun a b => Value.sortOrder b a :=
      funext fun a => funext fun b => (Value.sortOrder_swap b a).symm
    rw [hswap]
    exact Std.TransCmp.opposite

/-- The order of two lists of keys whose values may be of any types. -/
def keyOrder : List Direction → List Value → List Value → Ordering
  | d :: ds, a :: as, b :: bs => (d.order a b).then (keyOrder ds as bs)
  | _, _, _ => .eq

theorem compareKeys_of_alike (ds : List Direction) {as bs : List Value}
    (h : List.Forall₂ Value.Alike as bs) : compareKeys ds as bs = keyOrder ds as bs := by
  induction h generalizing ds with
  | nil => cases ds <;> rfl
  | @cons a b as bs hab _ ih =>
    cases ds with
    | nil => rfl
    | cons d ds =>
      rw [compareKeys, keyOrder, Value.sortCompare?_of_alike hab, ih ds]
      unfold Direction.order
      cases d.apply (a.sortOrder b) <;> rfl

theorem keyOrder_swap (ds : List Direction) (as bs : List Value) :
    keyOrder ds as bs = (keyOrder ds bs as).swap := by
  induction ds generalizing as bs with
  | nil => rfl
  | cons d ds ih =>
    cases as <;> cases bs
    case cons.cons a as b bs =>
      have hswap : d.order a b = (d.order b a).swap := Std.OrientedCmp.eq_swap
      rw [keyOrder, keyOrder, Ordering.swap_then, hswap, ih as bs]
    all_goals rfl

theorem keyOrder_trans {ds : List Direction} {as bs cs : List Value} (ha : as.length = ds.length)
    (hb : bs.length = ds.length) (hc : cs.length = ds.length)
    (hab : (keyOrder ds as bs).isLE) (hbc : (keyOrder ds bs cs).isLE) :
    (keyOrder ds as cs).isLE := by
  induction ds generalizing as bs cs with
  | nil => rfl
  | cons d ds ih =>
    obtain ⟨a, as, rfl⟩ := List.exists_cons_of_length_eq_add_one ha
    obtain ⟨b, bs, rfl⟩ := List.exists_cons_of_length_eq_add_one hb
    obtain ⟨c, cs, rfl⟩ := List.exists_cons_of_length_eq_add_one hc
    have hrest := ih (Nat.succ.inj ha) (Nat.succ.inj hb) (Nat.succ.inj hc)
    simp only [keyOrder, Ordering.isLE_then_iff_or] at hab hbc ⊢
    rcases hab with hab | ⟨hab, has⟩ <;> rcases hbc with hbc | ⟨hbc, hbs⟩
    · exact .inl (Std.TransCmp.lt_trans hab hbc)
    · exact .inl (Std.TransCmp.lt_of_lt_of_eq hab hbc)
    · exact .inl (Std.TransCmp.lt_of_eq_of_lt hab hbc)
    · exact .inr ⟨Std.TransCmp.eq_trans hab hbc, hrest has hbs⟩

/-! ## Types of keys -/

theorem alike_of_mixedKinds? {values : List Value} (h : mixedKinds? values = none) {a b : Value}
    (ha : a ∈ values) (hb : b ∈ values) : a.Alike b := by
  by_cases hna : a.isNull
  · exact .inl hna
  by_cases hnb : b.isNull
  · exact .inr (.inl hnb)
  have ha' : a ∈ values.filter (!·.isNull) := List.mem_filter.mpr ⟨ha, by simpa using hna⟩
  have hb' : b ∈ values.filter (!·.isNull) := List.mem_filter.mpr ⟨hb, by simpa using hnb⟩
  unfold mixedKinds? at h
  generalize values.filter (!·.isNull) = typed at h ha' hb'
  cases typed with
  | nil => cases ha'
  | cons first rest =>
    have hkind : ∀ v ∈ first :: rest, v.kind = first.kind := by
      have hnone := List.find?_eq_none.mp (Option.map_eq_none_iff.mp h)
      exact List.forall_mem_cons.mpr ⟨rfl, fun v hv => by simpa using hnone v hv⟩
    exact .inr (.inr ((hkind a ha').trans (hkind b hb').symm))

/-- Unless a key is refused, all lists of keys are alike. -/
theorem alike_of_mixedKey? {keys : List (List Value)} {width : Nat}
    (h : mixedKey? keys width = none) {as bs : List Value} (ha : as ∈ keys) (hb : bs ∈ keys)
    (has : as.length = width) (hbs : bs.length = width) : List.Forall₂ Value.Alike as bs := by
  refine List.forall₂_of_length_eq_of_get (has.trans hbs.symm) fun i hi hj => ?_
  have hnone := List.findSome?_eq_none_iff.mp h i (List.mem_range.mpr (has ▸ hi))
  refine alike_of_mixedKinds? (Option.map_eq_none_iff.mp hnone) ?_ ?_
  · exact List.mem_filterMap.mpr ⟨as, ha, List.getElem?_eq_getElem hi⟩
  · exact List.mem_filterMap.mpr ⟨bs, hb, List.getElem?_eq_getElem hj⟩

/-! ## Order of the keys

Lists of keys that are not refused for their types have a total order, the same one whatever types
they are of. -/

section

variable {directions : List Direction} {keys : List (List Value)}
  (hwidth : ∀ as ∈ keys, as.length = directions.length)
  (hmixed : mixedKey? keys directions.length = none) {as bs cs : List Value}

include hwidth hmixed

theorem compareKeys_of_mem (ha : as ∈ keys) (hb : bs ∈ keys) :
    compareKeys directions as bs = keyOrder directions as bs :=
  compareKeys_of_alike directions
    (alike_of_mixedKey? hmixed ha hb (hwidth as ha) (hwidth bs hb))

theorem compareKeys_swap (ha : as ∈ keys) (hb : bs ∈ keys) :
    compareKeys directions as bs = (compareKeys directions bs as).swap := by
  rw [compareKeys_of_mem hwidth hmixed ha hb, compareKeys_of_mem hwidth hmixed hb ha,
    keyOrder_swap]

theorem compareKeys_trans (ha : as ∈ keys) (hb : bs ∈ keys) (hc : cs ∈ keys)
    (hab : compareKeys directions as bs ≠ .gt) (hbc : compareKeys directions bs cs ≠ .gt) :
    compareKeys directions as cs ≠ .gt := by
  rw [compareKeys_of_mem hwidth hmixed ha hb] at hab
  rw [compareKeys_of_mem hwidth hmixed hb hc] at hbc
  rw [compareKeys_of_mem hwidth hmixed ha hc]
  exact Ordering.isLE_iff_ne_gt.mp (keyOrder_trans (hwidth as ha) (hwidth bs hb) (hwidth cs hc)
    (Ordering.isLE_iff_ne_gt.mpr hab) (Ordering.isLE_iff_ne_gt.mpr hbc))

end

/-! ## Sorts -/

/-- A sort by an order that is total on the elements is stable: with the places they come from, the
elements are in order, and those that tie are in the order of their places. -/
theorem stable_mergeSort_of_mem {α : Type} {le : α → α → Bool} {l : List α}
    (trans : ∀ a ∈ l, ∀ b ∈ l, ∀ c ∈ l, le a b → le b c → le a c)
    (total : ∀ a ∈ l, ∀ b ∈ l, le a b || le b a) :
    ∃ entries : List (α × Nat), entries.Perm l.zipIdx ∧ l.mergeSort le = entries.map (·.1) ∧
      entries.Pairwise fun a b => le a.1 b.1 ∧ (le b.1 a.1 → a.2 < b.2) := by
  -- the order is total on the elements, so sort these with the proofs that they are ones
  let leMem (a b : { a // a ∈ l }) : Bool := le a.1 b.1
  have htrans : ∀ a b c, leMem a b → leMem b c → leMem a c := fun a b c =>
    trans a.1 a.2 b.1 b.2 c.1 c.2
  have htotal : ∀ a b, leMem a b || leMem b a := fun a b => total a.1 a.2 b.1 b.2
  have hperm := List.mergeSort_perm l.attach.zipIdx (List.zipIdxLE leMem)
  have hsorted := List.pairwise_mergeSort (List.zipIdxLE_trans htrans)
    (List.zipIdxLE_total htotal) l.attach.zipIdx
  have hplaces :
      (l.attach.zipIdx.mergeSort (List.zipIdxLE leMem)).Pairwise fun a b => a.2 ≠ b.2 := by
    refine List.pairwise_map.mp ((hperm.map Prod.snd).nodup_iff.mpr ?_)
    rw [List.zipIdx_map_snd]
    exact List.nodup_range'
  refine ⟨(l.attach.zipIdx.mergeSort (List.zipIdxLE leMem)).map (Prod.map (·.1) id), ?_, ?_, ?_⟩
  · have hzip : l.attach.zipIdx.map (Prod.map (·.1) id) = l.zipIdx := by
      rw [← List.zipIdx_map, List.attach_map_subtype_val]
    exact (hperm.map _).trans (.of_eq hzip)
  · have hfirst : (l.attach.zipIdx.mergeSort (List.zipIdxLE leMem)).map (·.1) =
        l.attach.mergeSort leMem := List.mergeSort_zipIdx
    have hvalues : (l.attach.mergeSort leMem).map (·.1) = l.mergeSort le := by
      rw [List.map_mergeSort (s := le) fun _ _ _ _ => rfl, List.attach_map_subtype_val]
    rw [← hvalues, ← hfirst, List.map_map, List.map_map]
    rfl
  · refine List.pairwise_map.mpr ((hsorted.and hplaces).imp fun {a b} h => ?_)
    obtain ⟨hle, hne⟩ := h
    unfold List.zipIdxLE at hle
    split at hle
    · next hab =>
      refine ⟨hab, fun (hba : leMem b.1 a.1 = true) => ?_⟩
      rw [if_pos hba, decide_eq_true_eq] at hle
      exact Nat.lt_of_le_of_ne hle hne
    · cases hle

namespace Table

variable {table sorted : Table} {directions : List Direction}
  {key : Row → Except QueryError (List Value)} {keysOf : Row → List Value}

/-- What a sort comes to, if every row has its keys. -/
theorem sort_eq (hkey : ∀ row ∈ table.rows, key row = .ok (keysOf row)) :
    table.sort directions key =
      match mixedKey? (table.rows.map keysOf) directions.length with
      | some fault => .error (.type fault)
      | none => .ok (table.withRows (table.rows.mergeSort fun a b =>
          compareKeys directions (keysOf a) (keysOf b) != .gt)) := by
  have hkeys : table.rows.mapM key = .ok (table.rows.map keysOf) :=
    (mapM_congr_of_mem hkey).trans List.mapM_pure
  have hzip : (table.rows.map keysOf).zip table.rows =
      table.rows.map fun row => (keysOf row, row) := by
    rw [← List.zip_map', List.map_id']
  have hrows : ((table.rows.map fun row => (keysOf row, row)).mergeSort fun a b =>
      compareKeys directions a.1 b.1 != .gt).map (·.2) = table.rows.mergeSort fun a b =>
        compareKeys directions (keysOf a) (keysOf b) != .gt := by
    rw [← List.map_mergeSort (r := fun a b => compareKeys directions (keysOf a) (keysOf b) != .gt)
      fun _ _ _ _ => rfl, List.map_map]
    exact List.map_id _
  rw [sort, hkeys]
  simp only [bind, Except.bind, hzip]
  cases mixedKey? (table.rows.map keysOf) directions.length with
  | some fault => rfl
  | none => exact congrArg (Except.ok ∘ table.withRows) hrows

/-- A sort by keys of which none is refused is stable: with the places they come from, the rows are
in the order of their keys, and rows whose keys tie in that of their places. -/
theorem sorted_entries
    (hwidth : ∀ row ∈ table.rows, (keysOf row).length = directions.length)
    (hmixed : mixedKey? (table.rows.map keysOf) directions.length = none) :
    ∃ entries : List (Row × Nat), entries.Perm table.rows.zipIdx ∧
      (table.rows.mergeSort fun a b => compareKeys directions (keysOf a) (keysOf b) != .gt) =
        entries.map (·.1) ∧
      entries.Pairwise fun a b => compareKeys directions (keysOf a.1) (keysOf b.1) = .lt ∨
        compareKeys directions (keysOf a.1) (keysOf b.1) = .eq ∧ a.2 < b.2 := by
  have hlength : ∀ keys ∈ table.rows.map keysOf, keys.length = directions.length :=
    List.forall_mem_map.mpr hwidth
  have hswap : ∀ a ∈ table.rows, ∀ b ∈ table.rows,
      compareKeys directions (keysOf b) (keysOf a) =
        (compareKeys directions (keysOf a) (keysOf b)).swap := fun a ha b hb =>
    compareKeys_swap hlength hmixed (List.mem_map_of_mem hb) (List.mem_map_of_mem ha)
  have htrans : ∀ a ∈ table.rows, ∀ b ∈ table.rows, ∀ c ∈ table.rows,
      compareKeys directions (keysOf a) (keysOf b) != .gt →
      compareKeys directions (keysOf b) (keysOf c) != .gt →
      compareKeys directions (keysOf a) (keysOf c) != .gt := by
    intro a ha b hb c hc hab hbc
    rw [bne_iff_ne] at hab hbc ⊢
    exact compareKeys_trans hlength hmixed (List.mem_map_of_mem ha) (List.mem_map_of_mem hb)
      (List.mem_map_of_mem hc) hab hbc
  have htotal : ∀ a ∈ table.rows, ∀ b ∈ table.rows,
      compareKeys directions (keysOf a) (keysOf b) != .gt ||
        compareKeys directions (keysOf b) (keysOf a) != .gt := by
    intro a ha b hb
    rw [hswap a ha b hb]
    cases compareKeys directions (keysOf a) (keysOf b) <;> rfl
  obtain ⟨entries, hperm, hrows, hsorted⟩ := stable_mergeSort_of_mem htrans htotal
  refine ⟨entries, hperm, hrows, hsorted.imp_of_mem fun {a b} ha hb hab => ?_⟩
  obtain ⟨hle, htie⟩ := hab
  rw [hswap a.1 (List.fst_mem_of_mem_zipIdx (hperm.mem_iff.mp ha)) b.1
    (List.fst_mem_of_mem_zipIdx (hperm.mem_iff.mp hb))] at htie
  cases horder : compareKeys directions (keysOf a.1) (keysOf b.1) with
  | lt => exact .inl rfl
  | eq => exact .inr ⟨rfl, htie (by rw [horder]; rfl)⟩
  | gt =>
    rw [horder] at hle
    cases hle

/-- A sort moves rows around, and no row comes behind one with greater keys. -/
theorem sort_ok
    (hwidth : ∀ row ∈ table.rows, ∀ keys, key row = .ok keys → keys.length = directions.length)
    (h : table.sort directions key = .ok sorted) :
    ∃ entries : List (List Value × Row), sorted = table.withRows (entries.map (·.2)) ∧
      (entries.map (·.2)).Perm table.rows ∧ (∀ entry ∈ entries, key entry.2 = .ok entry.1) ∧
      entries.Pairwise fun a b => compareKeys directions a.1 b.1 ≠ .gt := by
  obtain ⟨keys, hkeys, -⟩ := exists_ok_of_bind h
  let keysOf (row : Row) : List Value := (key row).toOption.getD []
  have hkey : ∀ row ∈ table.rows, key row = .ok (keysOf row) := by
    intro row hrow
    obtain ⟨i, hi⟩ := List.mem_iff_getElem?.mp hrow
    obtain ⟨ks, -, hks⟩ := forall₂_getElem? (forall₂_of_mapM hkeys) hi
    simp only [keysOf, hks, Except.toOption, Option.getD_some]
  rw [sort_eq hkey] at h
  split at h
  · cases h
  · next hmixed =>
    cases h
    obtain ⟨entries, hperm, hrows, hsorted⟩ := sorted_entries
      (fun row hrow => hwidth row hrow _ (hkey row hrow)) hmixed
    have hmem : ∀ entry ∈ entries, entry.1 ∈ table.rows := fun entry he =>
      List.fst_mem_of_mem_zipIdx (hperm.mem_iff.mp he)
    refine ⟨entries.map fun entry => (keysOf entry.1, entry.1), ?_, ?_, ?_, ?_⟩
    · rw [hrows, List.map_map]
      rfl
    · have hfirst : (entries.map (·.1)).Perm table.rows :=
        (hperm.map (·.1)).trans (.of_eq (List.zipIdx_map_fst 0 table.rows))
      rw [List.map_map]
      exact hfirst
    · exact List.forall_mem_map.mpr fun entry he => hkey entry.1 (hmem entry he)
    · refine List.pairwise_map.mpr (hsorted.imp fun {a b} hab => ?_)
      rcases hab with hab | ⟨hab, -⟩ <;> simp [hab]

end Table

end TableQuery
