import TableQuery.Scope

/-! # Lookups in frames and scopes

What every lookup gives after every change. A lookup of a scope goes to the innermost frame first
and then to the frames around it. -/

namespace TableQuery

section

variable {β γ : Type} (entries : List (String × β)) (name : String)

theorem lookup_filter_key (p : String → Bool) :
    (entries.filter fun entry => p entry.1).lookup name =
      if p name then entries.lookup name else none := by
  induction entries with
  | nil => simp
  | cons entry rest ih =>
    obtain ⟨key, b⟩ := entry
    by_cases hn : name = key
    · subst hn
      cases hp : p name <;> simp [hp, ih]
    · have hb : (name == key) = false := by simpa using hn
      cases hp : p key <;> simp [hp, hb, ih, List.lookup_cons]

theorem lookup_filter_ne (k : String) :
    (entries.filter (·.1 != k)).lookup name = if name = k then none else entries.lookup name := by
  rw [lookup_filter_key entries name (· != k)]
  by_cases hn : name = k <;> simp [hn]

/-- An entry in front of those that have other keys. -/
theorem lookup_entered (k : String) (b : β) :
    ((k, b) :: entries.filter (·.1 != k)).lookup name =
      if name = k then some b else entries.lookup name := by
  rw [List.lookup_cons, lookup_filter_ne]
  by_cases hn : name = k
  · simp [hn]
  · have hb : (name == k) = false := by simpa using hn
    simp [hn, hb]

theorem lookup_map_value (f : β → γ) :
    (entries.map fun entry => (entry.1, f entry.2)).lookup name = (entries.lookup name).map f := by
  induction entries with
  | nil => rfl
  | cons entry rest ih =>
    rw [List.map_cons, List.lookup_cons, List.lookup_cons, ih]
    split <;> rfl

end

namespace Frame

variable (frame : Frame) (table : Table)

@[simp] theorem table?_setLabel (label tableName name : String) :
    (frame.setLabel label tableName).table? name = frame.table? name := rfl

theorem tableName?_setLabel (label tableName l : String) :
    (frame.setLabel label tableName).tableName? l =
      if l = label then some tableName else frame.tableName? l :=
  lookup_entered frame.labels l label tableName

theorem table?_setTable (name n : String) :
    (frame.setTable name table).table? n = if n = name then some table else frame.table? n := by
  simp only [setTable, table?, setLabel, List.lookup_append, lookup_filter_ne]
  by_cases hn : n = name
  · simp [hn]
  · have hb : (n == name) = false := by simpa using hn
    simp [hn, hb, List.lookup_cons]

theorem tableName?_setTable (name l : String) :
    (frame.setTable name table).tableName? l =
      if l = name then some table.name else frame.tableName? l :=
  frame.tableName?_setLabel name table.name l

@[simp] theorem allTables_rebound : (frame.rebound table).allTables = [table] := rfl

theorem table?_rebound (name : String) :
    (frame.rebound table).table? name = if name = table.name then some table else none := by
  rw [rebound, table?_setTable]
  rfl

theorem tableName?_rebound (label : String) :
    (frame.rebound table).tableName? label =
      if label = table.name then some table.name
      else (frame.tableName? label).map fun _ => table.name := by
  rw [rebound, tableName?_setTable]
  congr 1
  exact lookup_map_value frame.labels label fun _ => table.name

/-- The frame with a table bound under its name and a label. -/
def bind (label : String) : Frame := (frame.setTable table.name table).setLabel label table.name

theorem table?_bind (label name : String) :
    (frame.bind table label).table? name =
      if name = table.name then some table else frame.table? name := by
  rw [bind, table?_setLabel, table?_setTable]

theorem tableName?_bind (label l : String) :
    (frame.bind table label).tableName? l =
      if l = label ∨ l = table.name then some table.name else frame.tableName? l := by
  rw [bind, tableName?_setLabel, tableName?_setTable]
  by_cases hl : l = label
  · simp [hl]
  · simp [hl]

/-- Rebinding a second time under the same name is as good as rebinding once. -/
theorem rebound_rebound {first : Table} (hn : first.name = table.name) :
    (frame.rebound first).rebound table = frame.rebound table := by
  simp [rebound, setTable, setLabel, hn, List.filter_map, Function.comp_def, List.filter_filter]

/-! ## Closed frames -/

/-- Tables stand under their own names, which are labels too, and labels stand for tables. -/
structure Closed (frame : Frame) : Prop where
  name : ∀ name table, frame.table? name = some table → table.name = name
  ownLabel : ∀ name table, frame.table? name = some table → frame.tableName? name = some name
  table : ∀ label name, frame.tableName? label = some name → (frame.table? name).isSome

theorem closed_empty : Closed .empty := ⟨nofun, nofun, nofun⟩

theorem closed_rebound : (frame.rebound table).Closed where
  name n t h := by
    rw [table?_rebound] at h
    split at h
    · next hn => cases h; exact hn.symm
    · cases h
  ownLabel n t h := by
    rw [table?_rebound] at h
    split at h
    · next hn => rw [tableName?_rebound, if_pos hn, hn]
    · cases h
  table label n h := by
    have hn : n = table.name := by
      rw [tableName?_rebound] at h
      split at h
      · exact (Option.some.inj h).symm
      · obtain ⟨_, _, rfl⟩ := Option.map_eq_some_iff.mp h
        rfl
    rw [table?_rebound, if_pos hn]
    rfl

variable {frame table}

/-- A new label keeps a frame closed, since it is not the name of a table there. -/
theorem Closed.bind (h : frame.Closed) {label : String} (hfree : frame.tableName? label = none) :
    (frame.bind table label).Closed where
  name n t ht := by
    rw [table?_bind] at ht
    split at ht
    · next hn => cases ht; exact hn.symm
    · exact h.name n t ht
  ownLabel n t ht := by
    rw [table?_bind] at ht
    rw [tableName?_bind]
    by_cases hn : n = table.name
    · rw [if_pos (.inr hn), hn]
    · rw [if_neg hn] at ht
      have hl := h.ownLabel n t ht
      have hne : n ≠ label := by
        rintro rfl
        rw [hfree] at hl
        cases hl
      rw [if_neg (not_or.mpr ⟨hne, hn⟩), hl]
  table l n hl := by
    rw [tableName?_bind] at hl
    rw [table?_bind]
    by_cases hn : n = table.name
    · rw [if_pos hn]
      rfl
    · rw [if_neg hn]
      split at hl
      · exact absurd (Option.some.inj hl).symm hn
      · exact h.table l n hl

/-- What a closed frame finds stands under its own name there. -/
theorem Closed.table?_of_find? (h : frame.Closed) {name : String} {found : Table}
    (hf : frame.find? name = some found) : frame.table? found.name = some found := by
  have hs : ∃ key, frame.table? key = some found := by
    rcases Option.or_eq_some_iff.mp hf with ht | ⟨_, hb⟩
    · exact ⟨name, ht⟩
    · obtain ⟨key, _, ht⟩ := Option.bind_eq_some_iff.mp hb
      exact ⟨key, ht⟩
  obtain ⟨key, ht⟩ := hs
  rw [h.name key found ht, ht]

theorem Closed.table?_eq_none (h : frame.Closed) {name : String}
    (hl : frame.tableName? name = none) : frame.table? name = none := by
  cases ht : frame.table? name with
  | none => rfl
  | some found =>
    rw [h.ownLabel name found ht] at hl
    cases hl

end Frame

namespace Scope

variable (scope : Scope)

theorem tableName?_eq (label : String) :
    scope.tableName? label =
      (scope.innermost.tableName? label).or (scope.outer.findSome? (·.tableName? label)) := by
  simp only [tableName?, frames, List.findSome?_cons]
  cases scope.innermost.tableName? label <;> rfl

/-- A label is free if it is free in the innermost frame and in those around it. -/
theorem tableName?_eq_none {label : String} :
    scope.tableName? label = none ↔
      scope.innermost.tableName? label = none ∧
        scope.outer.findSome? (·.tableName? label) = none := by
  rw [tableName?_eq, Option.or_eq_none_iff]

/-- The scope with a table bound in its innermost frame under its name and a label. -/
def bind (table : Table) (label : String) : Scope :=
  scope.replace (scope.innermost.bind table label)

end Scope

end TableQuery
