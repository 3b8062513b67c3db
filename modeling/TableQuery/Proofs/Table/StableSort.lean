import Mathlib
import TableQuery.Proofs.Number.Order
import TableQuery.Proofs.Table.Sort

/-! # Stable sorts

A sort is refused for its types only: where one key has values of two types. Otherwise the keys of
the rows have a total preorder, nulls first, key by key and each in its direction; and the rows
come out in this order, rows with the same keys in the order they had. -/

namespace TableQuery

/-! ## Values -/

namespace Value

/-- What comes first in ascending order: null before everything else, numbers, texts and truth
values by size. -/
inductive Precedes : Value → Value → Prop
  | null {v : Value} (h : v.isNull = false) : Precedes null v
  | number {m n : Number} (h : m.totalKey < n.totalKey) : Precedes (number m) (number n)
  | text {s t : String} (h : s < t) : Precedes (text s) (text t)
  | boolean : Precedes (boolean false) (boolean true)

variable {a b : Value}

theorem sortCompare?_eq_lt : a.sortCompare? b = some .lt ↔ a.Precedes b := by
  constructor
  · intro h
    cases a <;> cases b
    case number.number => exact .number (Number.totalCompare_eq_lt.mp (Option.some.inj h))
    case text.text => exact .text (compareOfLessAndEq_eq_lt.mp (Option.some.inj h))
    case boolean.boolean p q => cases p <;> cases q <;> first | exact .boolean | cases h
    all_goals first | exact .null rfl | cases h
  · intro h
    cases h with
    | null h => cases b <;> first | rfl | cases h
    | number h => exact congrArg some (Number.totalCompare_eq_lt.mpr h)
    | text h => exact congrArg some (compareOfLessAndEq_eq_lt.mpr h)
    | boolean => rfl

/-- Only equal values tie. -/
theorem sortOrder_eq_eq : a.sortOrder b = .eq ↔ a = b := by
  cases a <;> cases b
  case number.number => exact Number.totalCompare_eq_eq.trans (number.injEq ..).symm.to_iff
  case text.text => exact Std.LawfulEqOrd.compare_eq_iff_eq.trans (text.injEq ..).symm.to_iff
  case boolean.boolean p q => cases p <;> cases q <;> decide
  all_goals simp [sortOrder, sortCompare?, rank]

theorem sortOrder_eq_lt (h : a.Alike b) : a.sortOrder b = .lt ↔ a.Precedes b := by
  rw [← sortCompare?_of_alike h, ← sortCompare?_eq_lt]
  rcases a.sortCompare? b with _ | _ | _ | _ <;> simp

end Value

/-- In this direction the first value comes before the second one. -/
def Direction.Puts : Direction → Value → Value → Prop
  | ascending, a, b => a.Precedes b
  | descending, a, b => b.Precedes a

theorem Value.Alike.symm {a b : Value} (h : a.Alike b) : b.Alike a := by
  rcases h with h | h | h
  · exact .inr (.inl h)
  · exact .inl h
  · exact .inr (.inr h.symm)

theorem Direction.order_eq_lt {d : Direction} {a b : Value} (h : a.Alike b) :
    d.order a b = .lt ↔ d.Puts a b := by
  cases d with
  | ascending => exact Value.sortOrder_eq_lt h
  | descending =>
    rw [order, apply, ← Value.sortOrder_swap, Value.sortOrder_eq_lt h.symm]
    rfl

theorem Direction.order_eq_eq {d : Direction} {a b : Value} : d.order a b = .eq ↔ a = b := by
  rw [← Value.sortOrder_eq_eq]
  cases d
  · rfl
  · exact Ordering.swap_eq_eq

/-! ## Keys -/

/-- The first keys that differ are in order. -/
inductive KeysBefore : List Direction → List Value → List Value → Prop
  | first {d : Direction} {a b : Value} {ds : List Direction} {as bs : List Value}
      (h : d.Puts a b) : KeysBefore (d :: ds) (a :: as) (b :: bs)
  | later {d : Direction} {a : Value} {ds : List Direction} {as bs : List Value}
      (h : KeysBefore ds as bs) : KeysBefore (d :: ds) (a :: as) (a :: bs)

theorem keyOrder_eq_lt {ds : List Direction} {as bs : List Value}
    (h : List.Forall₂ Value.Alike as bs) : keyOrder ds as bs = .lt ↔ KeysBefore ds as bs := by
  induction h generalizing ds with
  | nil => cases ds <;> exact ⟨nofun, nofun⟩
  | @cons a b as bs hab _ ih =>
    cases ds with
    | nil => exact ⟨nofun, nofun⟩
    | cons d ds =>
      rw [keyOrder, Ordering.then_eq_lt, d.order_eq_lt hab, d.order_eq_eq, ih]
      constructor
      · rintro (hd | ⟨rfl, hrest⟩)
        · exact .first hd
        · exact .later hrest
      · intro hbefore
        cases hbefore with
        | first hd => exact .inl hd
        | later hrest => exact .inr ⟨rfl, hrest⟩

theorem keyOrder_eq_eq {ds : List Direction} {as bs : List Value} (ha : as.length = ds.length)
    (hb : bs.length = ds.length) : keyOrder ds as bs = .eq ↔ as = bs := by
  induction ds generalizing as bs with
  | nil =>
    rw [List.eq_nil_of_length_eq_zero ha, List.eq_nil_of_length_eq_zero hb]
    exact ⟨fun _ => rfl, fun _ => rfl⟩
  | cons d ds ih =>
    obtain ⟨a, as, rfl⟩ := List.exists_cons_of_length_eq_add_one ha
    obtain ⟨b, bs, rfl⟩ := List.exists_cons_of_length_eq_add_one hb
    rw [keyOrder, Ordering.then_eq_eq, d.order_eq_eq, List.cons.injEq,
      ih (Nat.succ.inj ha) (Nat.succ.inj hb)]

/-- The order of keys is total and transitive on these lists of keys. It goes by the first keys
that differ, and only equal lists tie. -/
structure OrdersKeys (directions : List Direction) (keys : List (List Value)) : Prop where
  swap : ∀ as ∈ keys, ∀ bs ∈ keys,
    compareKeys directions as bs = (compareKeys directions bs as).swap
  trans : ∀ as ∈ keys, ∀ bs ∈ keys, ∀ cs ∈ keys, compareKeys directions as bs ≠ .gt →
    compareKeys directions bs cs ≠ .gt → compareKeys directions as cs ≠ .gt
  less : ∀ as ∈ keys, ∀ bs ∈ keys,
    (compareKeys directions as bs = .lt ↔ KeysBefore directions as bs)
  tied : ∀ as ∈ keys, ∀ bs ∈ keys, (compareKeys directions as bs = .eq ↔ as = bs)

theorem ordersKeys_of_mixedKey? {directions : List Direction} {keys : List (List Value)}
    (hwidth : ∀ as ∈ keys, as.length = directions.length)
    (hmixed : mixedKey? keys directions.length = none) : OrdersKeys directions keys where
  swap _ ha _ hb := compareKeys_swap hwidth hmixed ha hb
  trans _ ha _ hb _ hc := compareKeys_trans hwidth hmixed ha hb hc
  less as ha bs hb := by
    rw [compareKeys_of_mem hwidth hmixed ha hb]
    exact keyOrder_eq_lt (alike_of_mixedKey? hmixed ha hb (hwidth as ha) (hwidth bs hb))
  tied as ha bs hb := by
    rw [compareKeys_of_mem hwidth hmixed ha hb, keyOrder_eq_eq (hwidth as ha) (hwidth bs hb)]

/-! ## Types of keys -/

/-- Among the keys at a place there are these two values, of different types and neither null. -/
structure MixesTypes (keys : List (List Value)) (place : Nat) (a b : Value) : Prop where
  left : a ∈ keys.filterMap (·[place]?)
  right : b ∈ keys.filterMap (·[place]?)
  left_type : a.isNull = false
  right_type : b.isNull = false
  types : a.kind ≠ b.kind

theorem exists_of_mixedKinds? {values : List Value} {kinds : Kind × Kind}
    (h : mixedKinds? values = some kinds) :
    ∃ a ∈ values, ∃ b ∈ values, a.isNull = false ∧ b.isNull = false ∧ a.kind ≠ b.kind ∧
      kinds = (a.kind, b.kind) := by
  have hmem : ∀ v ∈ values.filter (!·.isNull), v ∈ values ∧ v.isNull = false := by
    intro v hv
    rw [List.mem_filter, Bool.not_eq_true'] at hv
    exact hv
  unfold mixedKinds? at h
  generalize values.filter (!·.isNull) = typed at h hmem
  cases typed with
  | nil => cases h
  | cons first rest =>
    obtain ⟨other, hother, rfl⟩ := Option.map_eq_some_iff.mp h
    obtain ⟨hfirst, hrest⟩ := List.forall_mem_cons.mp hmem
    obtain ⟨hv, hnull⟩ := hrest other (List.mem_of_find?_eq_some hother)
    have hkind : other.kind ≠ first.kind := by simpa using List.find?_some hother
    exact ⟨first, hfirst.1, other, hv, hfirst.2, hnull, hkind.symm, rfl⟩

/-- A fault tells which key has values of two types, and which types. -/
theorem exists_of_mixedKey? {keys : List (List Value)} {width : Nat} {fault : TypeFault}
    (h : mixedKey? keys width = some fault) :
    ∃ place < width, ∃ a b, MixesTypes keys place a b ∧
      fault = .sortKey (place + 1) a.kind b.kind := by
  obtain ⟨place, hplace, hfault⟩ := List.exists_of_findSome?_eq_some h
  obtain ⟨kinds, hkinds, rfl⟩ := Option.map_eq_some_iff.mp hfault
  obtain ⟨a, ha, b, hb, hna, hnb, hne, rfl⟩ := exists_of_mixedKinds? hkinds
  exact ⟨place, List.mem_range.mp hplace, a, b, ⟨ha, hb, hna, hnb, hne⟩, rfl⟩

/-- Values of two types in one key are never overlooked. -/
theorem MixesTypes.mixedKey?_ne_none {keys : List (List Value)} {width place : Nat} {a b : Value}
    (h : MixesTypes keys place a b) (hplace : place < width) : mixedKey? keys width ≠ none := by
  intro hnone
  have hkinds := List.findSome?_eq_none_iff.mp hnone place (List.mem_range.mpr hplace)
  rcases alike_of_mixedKinds? (Option.map_eq_none_iff.mp hkinds) h.left h.right with ha | hb | hk
  · rw [h.left_type] at ha
    cases ha
  · rw [h.right_type] at hb
    cases hb
  · exact h.types hk

/-! ## Sorts -/

/-- The second table has the rows of the first one in the order of their keys, rows whose keys tie
in the order they had there. -/
structure Table.SortsTo (table : Table) (directions : List Direction)
    (keysOf : Row → List Value) (sorted : Table) : Prop where
  name : sorted.name = table.name
  fields : sorted.fields = table.fields
  rows : ∃ entries : List (Row × Nat), entries.Perm table.rows.zipIdx ∧
    sorted.rows = entries.map (·.1) ∧
    entries.Pairwise fun a b => compareKeys directions (keysOf a.1) (keysOf b.1) = .lt ∨
      compareKeys directions (keysOf a.1) (keysOf b.1) = .eq ∧ a.2 < b.2

/-- A sort by as many keys as there are directions fails where one of the keys has values of two
types, and then for that reason. Otherwise it succeeds: the keys have a total preorder, and the
rows come out stably sorted by it. -/
theorem Table.sort_is_stable {table : Table} {directions : List Direction}
    {key : Row → Except QueryError (List Value)} {keysOf : Row → List Value}
    (hkey : ∀ row ∈ table.rows, key row = .ok (keysOf row))
    (hwidth : ∀ row ∈ table.rows, (keysOf row).length = directions.length) :
    ((∃ place < directions.length, ∃ a b, MixesTypes (table.rows.map keysOf) place a b) →
      ∃ place < directions.length, ∃ a b, MixesTypes (table.rows.map keysOf) place a b ∧
        table.sort directions key = .error (.type (.sortKey (place + 1) a.kind b.kind))) ∧
    ((¬∃ place < directions.length, ∃ a b, MixesTypes (table.rows.map keysOf) place a b) →
      OrdersKeys directions (table.rows.map keysOf) ∧
        ∃ sorted, table.sort directions key = .ok sorted ∧
          table.SortsTo directions keysOf sorted) := by
  rw [sort_eq hkey]
  cases hmixed : mixedKey? (table.rows.map keysOf) directions.length with
  | some fault =>
    obtain ⟨place, hplace, a, b, hmixes, rfl⟩ := exists_of_mixedKey? hmixed
    exact ⟨fun _ => ⟨place, hplace, a, b, hmixes, rfl⟩,
      fun hnone => absurd ⟨place, hplace, a, b, hmixes⟩ hnone⟩
  | none =>
    refine ⟨fun ⟨place, hplace, a, b, hmixes⟩ => ?_, fun _ => ⟨?_, _, rfl, ?_⟩⟩
    · exact absurd hmixed (hmixes.mixedKey?_ne_none hplace)
    · exact ordersKeys_of_mixedKey? (List.forall_mem_map.mpr hwidth) hmixed
    · obtain ⟨entries, hperm, hrows, hsorted⟩ := sorted_entries hwidth hmixed
      exact ⟨rfl, rfl, entries, hperm, hrows, hsorted⟩

/-- The rows with 1 stay in their order, in front of the null of a descending key. -/
theorem Table.ones_sorted_in_place :
    let row (x : Value) (y : String) : Row :=
      ⟨[("t", 0)], Column.ofFields "t" ["x", "y"], [x, .text y]⟩
    let one : Value := .number (.ofNat 1)
    let keysOf (row : Row) : List Value := row.values.take 1
    let table : Table := ⟨"t", ["x", "y"], [row one "first", row .null "x", row one "second"]⟩
    let sorted : Table := ⟨"t", ["x", "y"], [row one "first", row one "second", row .null "x"]⟩
    table.sort [.descending] (fun row => .ok (keysOf row)) = .ok sorted ∧
      OrdersKeys [.descending] (table.rows.map keysOf) ∧
      table.SortsTo [.descending] keysOf sorted := by
  intro row one keysOf table sorted
  have hwidth : ∀ row ∈ table.rows, (keysOf row).length = [Direction.descending].length := by
    intro row hrow
    fin_cases hrow <;> rfl
  have hunmixed : ¬∃ place < 1, ∃ a b, MixesTypes (table.rows.map keysOf) place a b :=
    fun ⟨_, hplace, _, _, hmixes⟩ => hmixes.mixedKey?_ne_none hplace rfl
  have hsort : table.sort [.descending] (fun row => .ok (keysOf row)) = .ok sorted := by cbv
  obtain ⟨horder, found, hfound, hsorts⟩ := (sort_is_stable (fun _ _ => rfl) hwidth).2 hunmixed
  obtain rfl := Except.ok.inj (hfound.symm.trans hsort)
  exact ⟨hsort, horder, hsorts⟩

end TableQuery
