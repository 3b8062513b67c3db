import TableQuery.Proofs.Evaluation.RenamedQuery

/-! # Names in frames

The names that stand in the frames of a query and in the rows of its from item and joins: those that
stood around it before, those that it writes down, and generated labels. A renaming that leaves all
of them alone leaves the frames alone. -/

namespace TableQuery

open Eval

variable (known : String → Prop)

/-- The name of the table and those in its columns are known. -/
structure Table.NamedIn (table : Table) : Prop where
  name : known table.name
  rows : ∀ row ∈ table.rows, row.From known

structure Frame.NamedIn (frame : Frame) : Prop where
  tables : ∀ entry ∈ frame.tables, known entry.1 ∧ entry.2.NamedIn known
  labels : ∀ entry ∈ frame.labels, known entry.1 ∧ known entry.2

/-- All names in the frames are known. -/
def Scope.NamedIn (scope : Scope) : Prop := ∀ frame ∈ scope.frames, frame.NamedIn known

variable {known}

/-! ## Frames -/

namespace Frame

variable {frame : Frame} {table : Table}

theorem namedIn_empty : Frame.NamedIn known .empty :=
  ⟨List.forall_mem_nil _, List.forall_mem_nil _⟩

theorem NamedIn.find? (h : frame.NamedIn known) {name : String}
    (hf : frame.find? name = some table) : table.NamedIn known := by
  have hentry : ∀ key, frame.table? key = some table → table.NamedIn known := by
    intro key hk
    obtain ⟨before, after, he, -⟩ := List.lookup_eq_some_iff.mp hk
    exact (h.tables (key, table) (by rw [he]; exact List.mem_append_right _ List.mem_cons_self)).2
  rcases Option.or_eq_some_iff.mp hf with ht | ⟨_, hb⟩
  · exact hentry name ht
  · obtain ⟨key, _, ht⟩ := Option.bind_eq_some_iff.mp hb
    exact hentry key ht

theorem NamedIn.setLabel (h : frame.NamedIn known) {label name : String} (hl : known label)
    (hn : known name) : (frame.setLabel label name).NamedIn known where
  tables := h.tables
  labels := List.forall_mem_cons.mpr
    ⟨⟨hl, hn⟩, fun entry hm => h.labels entry (List.mem_of_mem_filter hm)⟩

theorem NamedIn.setTable (h : frame.NamedIn known) (ht : table.NamedIn known) :
    (frame.setTable table.name table).NamedIn known where
  tables := List.forall_mem_append.mpr ⟨fun entry hm => h.tables entry (List.mem_of_mem_filter hm),
    List.forall_mem_singleton.mpr ⟨ht.name, ht⟩⟩
  labels := (h.setLabel ht.name ht.name).labels

theorem NamedIn.bind (h : frame.NamedIn known) (ht : table.NamedIn known) {label : String}
    (hl : known label) : (frame.bind table label).NamedIn known :=
  (h.setTable ht).setLabel hl ht.name

end Frame

theorem Scope.NamedIn.find? {scope : Scope} (h : scope.NamedIn known) {name : String}
    {table : Table} (hf : scope.find? name = some table) : table.NamedIn known := by
  obtain ⟨frame, hm, hf⟩ := List.exists_of_findSome?_eq_some hf
  exact (h frame hm).find? hf

theorem Scope.namedIn_all (scope : Scope) : scope.NamedIn fun _ => True :=
  fun _ _ => ⟨fun _ _ => ⟨trivial, trivial, fun _ _ _ _ => trivial⟩, fun _ _ => ⟨trivial, trivial⟩⟩

/-! ## From items and joins -/

variable {env : Environment} {s t u : State} {table left : Table}

theorem TableRef.rows_namedIn {joined : Bool} {ref : TableRef} (hs : s.scope.NamedIn known)
    (hl : ∀ own, ref.label = some own → known own)
    (h : Returns (ref.rows env joined) s table t) :
    table.NamedIn known ∧ (joined = true → ref.label = some table.name) := by
  obtain ⟨-, ⟨rfl, name, -, hfind⟩ | ⟨own, base, ho, rfl⟩⟩ := TableRef.rows_returns h
  · exact ⟨hs.find? hfind, fun hj => absurd hj Bool.false_ne_true⟩
  · refine ⟨⟨hl own ho, fun row hrow => ?_⟩, fun _ => ho⟩
    obtain ⟨first, _, rfl⟩ := List.mem_map.mp hrow
    exact Row.from_retag (hl own ho) first

theorem evaluateTableRef_namedIn {joined : Bool} {ref : TableRef}
    (hg : ∀ k, known (FreshLabel.numbered env.settings.labelStem k)) (hs : s.scope.NamedIn known)
    (hl : ∀ own, ref.label = some own → known own)
    (h : Returns (evaluateTableRef env joined ref) s table t) :
    t.scope.NamedIn known ∧ table.NamedIn known ∧
      (joined = true → ref.label = some table.name) := by
  rw [evaluateTableRef_eq] at h
  obtain ⟨found, u, hf, hb⟩ := Returns.bind h
  obtain ⟨hfound, hname⟩ := TableRef.rows_namedIn hs hl hf
  have hu : u.scope = s.scope := (TableRef.rows_returns hf).1.scope
  have hbound : ∀ label, known label → (u.scope.bind found label).NamedIn known := by
    intro label hlabel
    rw [hu]
    exact List.forall_mem_cons.mpr ⟨(hs _ List.mem_cons_self).bind hfound hlabel,
      fun frame hm => hs frame (List.mem_cons_of_mem _ hm)⟩
  cases hlabel : ref.label with
  | some own =>
    rw [hlabel, Returns, Clause.bindTable_some] at hb
    split at hb
    · cases hb
    · cases hb
      exact ⟨hbound own (hl own hlabel), hfound, hlabel ▸ hname⟩
  | none =>
    rw [hlabel, Returns, Clause.bindTable_none] at hb
    cases hb
    exact ⟨hbound _ (hg _), hfound, hlabel ▸ hname⟩

/-- The joined rows have known names in their columns, and so has the frame. -/
theorem joined_namedIn {ref : TableRef} {joins : List Join}
    (hg : ∀ k, known (FreshLabel.numbered env.settings.labelStem k)) (hs : s.scope.NamedIn known)
    (hl : ∀ own, ref.label = some own → known own)
    (hj : ∀ join ∈ joins, ∀ own, join.table.label = some own → known own)
    (h : Returns (Pipeline.joined (evaluateTableRef env false ref) (joins.map (evaluateJoin env)))
      s table t) :
    t.scope.NamedIn known ∧ ∀ row ∈ table.rows, row.From known := by
  -- by induction on the joins: every one of them binds a table whose names are known
  refine Pipeline.joined_returns
    (P := fun table t => t.scope.NamedIn known ∧ ∀ row ∈ table.rows, row.From known)
    (fun first u hf => ?_) (fun step hm left next u v hleft hstep => ?_) h
  · obtain ⟨hu, hfirst, -⟩ := evaluateTableRef_namedIn hg hs hl hf
    exact ⟨hu, hfirst.rows⟩
  · obtain ⟨join, hjoin, rfl⟩ := List.mem_map.mp hm
    obtain ⟨right, w, hr, hrestored, hrows⟩ := evaluateJoin_returns hstep
    obtain ⟨hw, hright, -⟩ := evaluateTableRef_namedIn hg hleft.1 (hj join hjoin) hr
    refine ⟨by rw [hrestored.scope]; exact hw, fun row hrow => ?_⟩
    obtain ⟨l, hl, r, hr, rfl⟩ := hrows row hrow
    refine (hleft.2 l hl).join ?_
    rcases hr with hr | rfl
    · exact hright.rows r hr
    · exact Row.from_nulls hright.name right.fields

/-! ## Renamings that leave known names alone -/

section

variable {R : String → String → Prop} (hself : ∀ name, known name → R name name)
include hself

theorem Row.From.renamed {row : Row} (h : row.From known) : row.Renamed R row :=
  ⟨List.forall₂_same.mpr fun column hc => ⟨hself _ (h column hc), rfl, rfl, rfl⟩, rfl⟩

theorem Table.NamedIn.renamed (h : table.NamedIn known) : table.Renamed R table :=
  ⟨hself _ h.name, rfl, List.forall₂_same.mpr fun row hr => (h.rows row hr).renamed hself⟩

theorem Frame.NamedIn.renamed {frame : Frame} (h : frame.NamedIn known) :
    frame.Renamed R frame where
  tables := List.forall₂_same.mpr fun entry hm =>
    ⟨hself _ (h.tables entry hm).1, (h.tables entry hm).2.renamed hself⟩
  labels := List.forall₂_same.mpr fun entry hm =>
    ⟨hself _ (h.labels entry hm).1, hself _ (h.labels entry hm).2⟩

theorem FramesRenamed.self {frames : List Frame} (h : ∀ frame ∈ frames, frame.NamedIn known) :
    FramesRenamed R frames frames := by
  induction frames with
  | nil => exact .nil
  | cons frame rest ih =>
    exact .cons ((h frame List.mem_cons_self).renamed hself)
      (ih fun f hf => h f (List.mem_cons_of_mem _ hf))

theorem Scope.NamedIn.renamed (h : s.scope.NamedIn known) (hg : s.groupSource = none) :
    s.Renamed R s where
  innermost := (h _ List.mem_cons_self).renamed hself
  outer := .self hself fun frame hf => h frame (List.mem_cons_of_mem _ hf)
  groupSource := by rw [hg]; exact .none
  labelCounter := rfl

end

end TableQuery
