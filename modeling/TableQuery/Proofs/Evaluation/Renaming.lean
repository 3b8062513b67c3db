import TableQuery.Proofs.Table.Renaming

/-! # Frames under other names

Two runs of one query in frames that differ in the names of tables only. The names that the query
writes down are the same in both runs; names that it does not, those of joined and grouped tables,
may differ, as long as names are equal in one run where their counterparts are in the other. A stack
of frames may have empty frames in it that the other one lacks. -/

namespace TableQuery

open Eval

/-! ## Lookups -/

section

variable {α β γ δ : Type} {P : α → β → Prop} {Q : γ → δ → Prop} {R : String → String → Prop}

theorem rel_or {a c : Option α} {b d : Option β} (h : Option.Rel P a b) (h' : Option.Rel P c d) :
    Option.Rel P (a.or c) (b.or d) := by
  cases h with
  | some h => exact .some h
  | none => exact h'

theorem rel_bind {a : Option α} {b : Option β} {f : α → Option γ} {g : β → Option δ}
    (h : Option.Rel P a b) (hn : ∀ a b, P a b → Option.Rel Q (f a) (g b)) :
    Option.Rel Q (a.bind f) (b.bind g) := by
  cases h with
  | some h => exact hn _ _ h
  | none => exact .none

theorem rel_map {a : Option α} {b : Option β} {f : α → γ} {g : β → δ} (h : Option.Rel P a b)
    (hn : ∀ a b, P a b → Q (f a) (g b)) : Option.Rel Q (a.map f) (b.map g) := by
  cases h with
  | some h => exact .some (hn _ _ h)
  | none => exact .none

theorem isSome_eq_of_rel {a : Option α} {b : Option β} (h : Option.Rel P a b) :
    a.isSome = b.isSome := by
  cases h with
  | some _ => rfl
  | none => rfl

/-- An entry under a name, and what stands there. -/
def RenamedEntry (R : String → String → Prop) (P : α → β → Prop) (a : String × α) (b : String × β) :
    Prop :=
  R a.1 b.1 ∧ P a.2 b.2

theorem rel_lookup (hR : OneToOne R) {entries : List (String × α)} {entries' : List (String × β)}
    (h : List.Forall₂ (RenamedEntry R P) entries entries') {n n' : String} (hn : R n n') :
    Option.Rel P (entries.lookup n) (entries'.lookup n') := by
  induction h with
  | nil => exact .none
  | @cons a b _ _ hab _ ih =>
    rw [List.lookup_cons, List.lookup_cons]
    by_cases he : n = a.1
    · have he' := (hR hn hab.1).mp he
      rw [beq_iff_eq.mpr he, beq_iff_eq.mpr he']
      exact .some hab.2
    · have he' := mt (hR hn hab.1).mpr he
      rw [beq_false_of_ne he, beq_false_of_ne he']
      exact ih

theorem forall₂_filter_ne (hR : OneToOne R) {entries : List (String × α)}
    {entries' : List (String × β)} (h : List.Forall₂ (RenamedEntry R P) entries entries')
    {n n' : String} (hn : R n n') :
    List.Forall₂ (RenamedEntry R P) (entries.filter (·.1 != n)) (entries'.filter (·.1 != n')) := by
  refine List.rel_filter (fun a b hab => ?_) h
  show (a.1 != n) = true ↔ (b.1 != n') = true
  rw [bne_iff_ne, bne_iff_ne, ne_eq, ne_eq, hR hab.1 hn]

end

variable (R : String → String → Prop)

/-! ## Frames -/

structure Frame.Renamed (f g : Frame) : Prop where
  tables : List.Forall₂ (RenamedEntry R (Table.Renamed R)) f.tables g.tables
  labels : List.Forall₂ (RenamedEntry R R) f.labels g.labels

/-- Frame by frame; the second stack may have empty frames of its own. -/
inductive FramesRenamed : List Frame → List Frame → Prop where
  | nil : FramesRenamed [] []
  | cons {f g : Frame} {fs gs : List Frame} (h : f.Renamed R g) (hs : FramesRenamed fs gs) :
    FramesRenamed (f :: fs) (g :: gs)
  | padded {fs gs : List Frame} (hs : FramesRenamed fs gs) : FramesRenamed fs (.empty :: gs)

structure State.Renamed (s t : State) : Prop where
  innermost : s.scope.innermost.Renamed R t.scope.innermost
  outer : FramesRenamed R s.scope.outer t.scope.outer
  groupSource : Option.Rel (Frame.Renamed R) s.groupSource t.groupSource
  labelCounter : s.labelCounter = t.labelCounter

/-- The contexts have rows that differ in names only. -/
structure Context.Renamed (context context' : Context) : Prop where
  row : Option.Rel (Row.Renamed R) context.row context'.row
  group : Option.Rel (List.Forall₂ (Row.Renamed R)) context.group context'.group

variable {R} (hR : OneToOne R)

namespace Frame

variable {f g : Frame} {table table' : Table} {n n' : String}

theorem renamed_empty : Renamed R .empty .empty := ⟨.nil, .nil⟩

theorem Renamed.allTables (h : f.Renamed R g) :
    List.Forall₂ (Table.Renamed R) f.allTables g.allTables :=
  List.forall₂_map_left_iff.mpr (List.forall₂_map_right_iff.mpr
    (h.tables.imp fun _ _ hentry => hentry.2))

include hR

theorem Renamed.table? (h : f.Renamed R g) (hn : R n n') :
    Option.Rel (Table.Renamed R) (f.table? n) (g.table? n') := rel_lookup hR h.tables hn

theorem Renamed.tableName? (h : f.Renamed R g) (hn : R n n') :
    Option.Rel R (f.tableName? n) (g.tableName? n') := rel_lookup hR h.labels hn

theorem Renamed.find? (h : f.Renamed R g) (hn : R n n') :
    Option.Rel (Table.Renamed R) (f.find? n) (g.find? n') :=
  rel_or (h.table? hR hn) (rel_bind (h.tableName? hR hn) fun _ _ hm => h.table? hR hm)

theorem Renamed.setLabel (h : f.Renamed R g) (hn : R n n') {l l' : String} (hl : R l l') :
    (f.setLabel l n).Renamed R (g.setLabel l' n') :=
  ⟨h.tables, .cons ⟨hl, hn⟩ (forall₂_filter_ne hR h.labels hl)⟩

theorem Renamed.setTable (h : f.Renamed R g) (hn : R n n') (ht : table.Renamed R table') :
    (f.setTable n table).Renamed R (g.setTable n' table') where
  tables := List.rel_append (forall₂_filter_ne hR h.tables hn) (.cons ⟨hn, ht⟩ .nil)
  labels := (h.setLabel hR ht.name hn).labels

theorem Renamed.bind (h : f.Renamed R g) (ht : table.Renamed R table') {l l' : String}
    (hl : R l l') : (f.bind table l).Renamed R (g.bind table' l') :=
  (h.setTable hR ht.name ht).setLabel hR ht.name hl

theorem Renamed.rebound (h : f.Renamed R g) (ht : table.Renamed R table') :
    (f.rebound table).Renamed R (g.rebound table') := by
  refine Renamed.setTable hR ⟨.nil, ?_⟩ ht.name ht
  exact List.forall₂_map_left_iff.mpr (List.forall₂_map_right_iff.mpr
    (h.labels.imp fun _ _ hentry => ⟨hentry.1, ht.name⟩))

end Frame

theorem FramesRenamed.findSome? {β γ : Type} {P : β → γ → Prop} {look : Frame → Option β}
    {look' : Frame → Option γ} {fs gs : List Frame} (h : FramesRenamed R fs gs)
    (hl : ∀ f g, Frame.Renamed R f g → Option.Rel P (look f) (look' g))
    (he : look' .empty = none) : Option.Rel P (fs.findSome? look) (gs.findSome? look') := by
  induction h with
  | nil => exact .none
  | cons hf _ ih =>
    rw [List.findSome?_cons, List.findSome?_cons]
    have hfound := hl _ _ hf
    revert hfound
    generalize look _ = found
    generalize look' _ = found'
    intro hfound
    cases hfound with
    | some hab => exact .some hab
    | none => exact ih
  | padded _ ih =>
    rw [List.findSome?_cons, he]
    exact ih

/-! ## Column references -/

namespace Scope

variable {scope scope' : Scope} {ref : ColumnRef} {row row' : Row}

/-- References without a qualifier depend on the innermost frame only. -/
theorem both_owner
    (h : List.Forall₂ (Table.Renamed R) scope.innermost.allTables scope'.innermost.allTables)
    (ref : ColumnRef) : Both R (scope.owner ref) (scope'.owner ref) := by
  have hfields : List.Forall₂ (Table.Renamed R)
      (scope.innermost.allTables.filter (·.hasField ref.name))
      (scope'.innermost.allTables.filter (·.hasField ref.name)) := by
    refine List.rel_filter (fun a b hab => ?_) h
    show a.hasField ref.name = true ↔ b.hasField ref.name = true
    rw [Table.hasField, Table.hasField, hab.fields]
  unfold owner
  revert hfields
  generalize List.filter _ _ = found
  generalize List.filter _ _ = found'
  intro hfields
  cases hfields with
  | nil => exact .error
  | cons ht hrest =>
    cases hrest with
    | nil => exact .ok ht.name
    | cons _ _ => exact .error

include hR

theorem both_resolve (ht : Both R (scope.tableOf ref) (scope'.tableOf ref))
    (hr : row.Renamed R row') :
    Both (Column.RenamedCell R) (scope.resolve ref row) (scope'.resolve ref row') := by
  refine ht.bind fun table table' ht => ?_
  refine (hr.column hR ht ref.name).bind fun column? column'? hc => ?_
  cases hc with
  | none => exact .error
  | some hc =>
    simp only [hr.values, hc.index]
    split
    · exact .ok ⟨hc, rfl⟩
    · exact .error

end Scope

/-! ## States -/

namespace State.Renamed

variable {s t : State} {table table' : Table} {row row' : Row} {n n' : String}

theorem frames (h : s.Renamed R t) : FramesRenamed R s.scope.frames t.scope.frames :=
  .cons h.innermost h.outer

theorem of_restored (h : s.Renamed R t) {u v : State} (hu : s.Restored u) (hv : t.Restored v)
    (hn : u.labelCounter = v.labelCounter) : u.Renamed R v where
  innermost := by rw [hu.scope, hv.scope]; exact h.innermost
  outer := by rw [hu.scope, hv.scope]; exact h.outer
  groupSource := by rw [hu.groupSource, hv.groupSource]; exact h.groupSource
  labelCounter := hn

theorem opened (h : s.Renamed R t) : s.opened.Renamed R t.opened :=
  ⟨Frame.renamed_empty, h.frames, .none, h.labelCounter⟩

include hR

theorem table? (h : s.Renamed R t) (hn : R n n') :
    Option.Rel (Table.Renamed R) (s.scope.table? n) (t.scope.table? n') :=
  h.frames.findSome? (fun _ _ hf => hf.table? hR hn) rfl

theorem tableName? (h : s.Renamed R t) (hn : R n n') :
    Option.Rel R (s.scope.tableName? n) (t.scope.tableName? n') :=
  h.frames.findSome? (fun _ _ hf => hf.tableName? hR hn) rfl

theorem find? (h : s.Renamed R t) (hn : R n n') :
    Option.Rel (Table.Renamed R) (s.scope.find? n) (t.scope.find? n') :=
  h.frames.findSome? (fun _ _ hf => hf.find? hR hn) rfl

theorem bind (h : s.Renamed R t) (ht : table.Renamed R table') {l l' : String} (hl : R l l')
    {k k' : Nat} (hk : k = k') :
    State.Renamed R { s with scope := s.scope.bind table l, labelCounter := k }
      { t with scope := t.scope.bind table' l', labelCounter := k' } :=
  ⟨h.innermost.bind hR ht hl, h.outer, h.groupSource, hk⟩

theorem rebind (h : s.Renamed R t) (ht : table.Renamed R table') :
    State.Renamed R { s with scope := s.scope.rebind table }
      { t with scope := t.scope.rebind table' } :=
  ⟨h.innermost.rebound hR ht, h.outer, h.groupSource, h.labelCounter⟩

/-- The next free number is the same one. -/
theorem firstFree (h : s.Renamed R t) {stem : String}
    (hg : ∀ k, R (FreshLabel.numbered stem k) (FreshLabel.numbered stem k)) :
    FreshLabel.firstFree stem s.scope.allLabels s.labelCounter =
      FreshLabel.firstFree stem t.scope.allLabels t.labelCounter := by
  have hused (k : Nat) : FreshLabel.numbered stem k ∈ s.scope.allLabels ↔
      FreshLabel.numbered stem k ∈ t.scope.allLabels := by
    rw [← Scope.tableName?_isSome_iff, ← Scope.tableName?_isSome_iff,
      isSome_eq_of_rel (h.tableName? hR (hg k))]
  rw [h.labelCounter]
  exact FreshLabel.firstFree_congr hused _

theorem tableOf (h : s.Renamed R t) {ref : ColumnRef} (hq : ∀ q, ref.table = some q → R q q) :
    Both R (s.scope.tableOf ref) (t.scope.tableOf ref) := by
  unfold Scope.tableOf
  cases hr : ref.table with
  | some qualifier =>
    have hn := hq qualifier hr
    have hfound : Option.Rel R
        ((s.scope.tableName? qualifier).or ((s.scope.table? qualifier).map (·.name)))
        ((t.scope.tableName? qualifier).or ((t.scope.table? qualifier).map (·.name))) :=
      rel_or (h.tableName? hR hn) (rel_map (h.table? hR hn) fun _ _ ht => ht.name)
    show Both R (s.scope.qualified qualifier) (t.scope.qualified qualifier)
    unfold Scope.qualified
    revert hfound
    generalize Option.or _ _ = found
    generalize Option.or _ _ = found'
    intro hfound
    cases hfound with
    | some hn => exact .ok hn
    | none => exact .error
  | none => exact Scope.both_owner h.innermost.allTables ref

theorem resolve (h : s.Renamed R t) {ref : ColumnRef} (hq : ∀ q, ref.table = some q → R q q)
    (hr : row.Renamed R row') :
    Both (Column.RenamedCell R) (s.scope.resolve ref row) (t.scope.resolve ref row') :=
  Scope.both_resolve hR (h.tableOf hR hq) hr

end State.Renamed

end TableQuery
