import TableQuery.Proofs.Evaluation.Simulation

/-! # Runs that cannot be told apart

Two runs of a query have the same outcome if they agree on what the query can see: the tables that
it reads, and the tables that its labels and qualifiers stand for. The frames that the query opens
itself are alike in both runs but for the labels of tables that it gives none, which are numbered
from where the counter stands; such a label must not be a name that the query uses. -/

namespace TableQuery

/-- The names that a query uses. -/
structure Vocabulary where
  /-- Tables that it reads from. -/
  reads : String → Prop
  /-- Labels that it gives and qualifiers of its columns. -/
  names : String → Prop
  /-- It leaves tables without a label. -/
  unlabelled : Prop

namespace Vocabulary

variable (V : Vocabulary)

def Known (name : String) : Prop := V.reads name ∨ V.names name

/-- A mention uses names of the vocabulary only. -/
def Fits : Mention → Prop
  | .column ref => ∀ qualifier, ref.table = some qualifier → V.names qualifier
  | .item source label =>
    (∀ name, source = some name → V.reads name) ∧ (∀ own, label = some own → V.names own) ∧
      (source ≠ none → label = none → V.unlabelled)

end Vocabulary

/-! ## Frames -/

/-- Frames with the same tables, which known names find alike. -/
structure Frame.Alike (V : Vocabulary) (f g : Frame) : Prop where
  tables : f.tables = g.tables
  labels : ∀ name, V.Known name → f.tableName? name = g.tableName? name

/-- No generated label is a known name: the known ones of that form are in use. -/
def Reserved (V : Vocabulary) (stem : String) (frames : List Frame) : Prop :=
  V.unlabelled → ∀ n, V.Known (FreshLabel.numbered stem n) →
    (frames.findSome? (·.tableName? (FreshLabel.numbered stem n))).isSome

/-- Stacks of frames in which known names mean the same. -/
structure FramesAlike (V : Vocabulary) (stem : String) (fs gs : List Frame) : Prop where
  find? : ∀ name, V.reads name → fs.findSome? (·.find? name) = gs.findSome? (·.find? name)
  tableName? : ∀ name, V.names name →
    fs.findSome? (·.tableName? name) = gs.findSome? (·.tableName? name)
  table? : ∀ name, V.names name → fs.findSome? (·.table? name) = gs.findSome? (·.table? name)
  left : Reserved V stem fs
  right : Reserved V stem gs

variable {V : Vocabulary} {stem : String}

namespace Frame.Alike

variable {f g : Frame}

theorem empty : Frame.Alike V .empty .empty := ⟨rfl, fun _ _ => rfl⟩

theorem table? (h : Frame.Alike V f g) (name : String) : f.table? name = g.table? name := by
  rw [Frame.table?, Frame.table?, h.tables]

theorem find? (h : Frame.Alike V f g) {name : String} (hn : V.Known name) :
    f.find? name = g.find? name := by
  rw [Frame.find?, Frame.find?, h.table?, h.labels name hn]
  congr 2
  exact funext h.table?

theorem rebound (h : Frame.Alike V f g) (table : Table) :
    Frame.Alike V (f.rebound table) (g.rebound table) where
  tables := rfl
  labels name hn := by rw [tableName?_rebound, tableName?_rebound, h.labels name hn]

/-- Frames stay alike when a table is bound, under one label or under two that are not known. -/
theorem bind (h : Frame.Alike V f g) (table : Table) {label label' : String}
    (hl : label = label' ∨ ¬V.Known label ∧ ¬V.Known label') :
    Frame.Alike V (f.bind table label) (g.bind table label') where
  tables := by
    show List.filter _ f.tables ++ _ = List.filter _ g.tables ++ _
    rw [h.tables]
  labels name hn := by
    rw [tableName?_bind, tableName?_bind, h.labels name hn]
    rcases hl with rfl | ⟨hl, hl'⟩
    · rfl
    · have hne : name ≠ label := fun he => hl (he ▸ hn)
      have hne' : name ≠ label' := fun he => hl' (he ▸ hn)
      simp [hne, hne']

end Frame.Alike

theorem Reserved.cons {fs : List Frame} (h : Reserved V stem fs) (f : Frame) :
    Reserved V stem (f :: fs) := by
  intro hu n hn
  rw [List.findSome?_cons]
  split
  · rfl
  · exact h hu n hn

theorem FramesAlike.cons {fs gs : List Frame} {f g : Frame} (h : FramesAlike V stem fs gs)
    (hf : Frame.Alike V f g) : FramesAlike V stem (f :: fs) (g :: gs) where
  find? name hn := by
    rw [List.findSome?_cons, List.findSome?_cons, hf.find? (.inl hn), h.find? name hn]
  tableName? name hn := by
    rw [List.findSome?_cons, List.findSome?_cons, hf.labels name (.inr hn), h.tableName? name hn]
  table? name hn := by
    rw [List.findSome?_cons, List.findSome?_cons, hf.table?, h.table? name hn]
  left := h.left.cons f
  right := h.right.cons g

/-! ## States -/

structure State.Alike (V : Vocabulary) (stem : String) (s t : State) : Prop where
  innermost : Frame.Alike V s.scope.innermost t.scope.innermost
  outer : FramesAlike V stem s.scope.outer t.scope.outer
  groupSource : Option.Rel (Frame.Alike V) s.groupSource t.groupSource

namespace State.Alike

variable {s t s' t' : State}

/-- The counters do not matter. -/
theorem of_restored (h : s.Alike V stem t) (hs : s.Restored s') (ht : t.Restored t') :
    s'.Alike V stem t' where
  innermost := by rw [hs.scope, ht.scope]; exact h.innermost
  outer := by rw [hs.scope, ht.scope]; exact h.outer
  groupSource := by rw [hs.groupSource, ht.groupSource]; exact h.groupSource

theorem frames (h : s.Alike V stem t) : FramesAlike V stem s.scope.frames t.scope.frames :=
  h.outer.cons h.innermost

theorem resolve (h : s.Alike V stem t) {ref : ColumnRef} (hr : V.Fits (.column ref)) :
    s.scope.resolve ref = t.scope.resolve ref := by
  refine Scope.resolve_of_lookups h.innermost.tables fun qualifier hq => ?_
  have hn := hr qualifier hq
  exact ⟨h.frames.tableName? qualifier hn, h.frames.table? qualifier hn⟩

theorem indistinct (h : s.Alike V stem t) : Scope.Indistinct V.Fits s.scope t.scope where
  resolve _ hr := h.resolve hr
  find? name _ hf := h.frames.find? name (hf.1 name rfl)
  tableName? _ label hf := congrArg Option.isSome (h.frames.tableName? label (hf.2.1 label rfl))
  innermost label _ := congrArg Option.isSome (h.innermost.table? label)

/-- A generated label is no known name. -/
theorem fresh_not_known {frames : List Frame} (hr : Reserved V stem frames) (hu : V.unlabelled)
    {n : Nat} (hfree : frames.findSome? (·.tableName? (FreshLabel.numbered stem n)) = none) :
    ¬V.Known (FreshLabel.numbered stem n) := by
  intro hk
  have hs := hr hu n hk
  rw [hfree] at hs
  cases hs

/-! ## Steps -/

theorem rebind (h : s.Alike V stem t) (table : Table) :
    State.Alike V stem { s with scope := s.scope.rebind table }
      { t with scope := t.scope.rebind table } :=
  ⟨h.innermost.rebound table, h.outer, h.groupSource⟩

theorem bind (h : s.Alike V stem t) (table : Table) (n m : Nat) {label label' : String}
    (hl : label = label' ∨ ¬V.Known label ∧ ¬V.Known label') :
    State.Alike V stem { s with scope := s.scope.bind table label, labelCounter := n }
      { t with scope := t.scope.bind table label', labelCounter := m } :=
  ⟨h.innermost.bind table hl, h.outer, h.groupSource⟩

end State.Alike

namespace Eval

variable {α : Type}

/-- If an evaluation restores the state, its outcomes are all that matters. -/
theorem alike_of_restores {act : Eval α} (hm : act.Moves State.Restored)
    (ho : ∀ s t, State.Alike V stem s t → (act.runFrom s).1 = (act.runFrom t).1) :
    act.Preserves (State.Alike V stem) :=
  fun s t h => ⟨ho s t h, h.of_restored (hm s) (hm t)⟩

/-! ## Brackets -/

theorem alike_inChildScope {act : Eval α} (h : act.Preserves (State.Alike V stem)) {s t : State}
    (hs : FramesAlike V stem s.scope.frames t.scope.frames) :
    (act.inChildScope.runFrom s).1 = (act.inChildScope.runFrom t).1 :=
  (h { s with scope := s.scope.push, groupSource := none }
    { t with scope := t.scope.push, groupSource := none } ⟨.empty, hs, .none⟩).1

theorem alike_inGroupSource {act : Eval α} (h : act.Preserves (State.Alike V stem)) {s t : State}
    (hs : s.Alike V stem t) :
    (act.inGroupSource.runFrom s).1 = (act.inGroupSource.runFrom t).1 := by
  obtain ⟨scope, source, n⟩ := s
  obtain ⟨scope', source', n'⟩ := t
  obtain ⟨hi, ho, hg⟩ := hs
  cases hg with
  | none => exact (h _ _ ⟨hi, ho, .none⟩).1
  | @some source source' hg =>
    exact (h ⟨scope.replace source, none, n⟩ ⟨scope'.replace source', none, n'⟩ ⟨hg, ho, .none⟩).1

theorem alike_overProjection {act : Eval α} (h : act.Preserves (State.Alike V stem))
    (projected : Table) : (act.overProjection projected).Preserves (State.Alike V stem) := by
  intro s t hs
  have hrun := h ⟨s.scope.rebind projected, some s.scope.innermost, s.labelCounter⟩
    ⟨t.scope.rebind projected, some t.scope.innermost, t.labelCounter⟩
    ⟨hs.innermost.rebound projected, hs.outer, .some hs.innermost⟩
  exact ⟨hrun.1, hrun.2.innermost, hrun.2.outer, hs.groupSource⟩

end Eval

/-! ## Queries -/

variable {env : Environment}

theorem alike_bindTable (label? : Option String) (table : Table)
    (hk : label? = none → V.unlabelled) (hn : ∀ own, label? = some own → V.names own) :
    (Clause.bindTable env label? table).Preserves (State.Alike V env.settings.labelStem) := by
  intro s t h
  cases label? with
  | some own =>
    have hl : s.scope.tableName? own = t.scope.tableName? own :=
      h.frames.tableName? own (hn own rfl)
    rw [Clause.bindTable_some, Clause.bindTable_some, hl]
    split
    · exact ⟨rfl, h⟩
    · exact ⟨rfl, h.bind table _ _ (.inl rfl)⟩
  | none =>
    rw [Clause.bindTable_none, Clause.bindTable_none]
    refine ⟨rfl, h.bind table _ _ (.inr ⟨?_, ?_⟩)⟩
    · exact State.Alike.fresh_not_known h.frames.left (hk rfl) (Clause.freshLabel_free env s)
    · exact State.Alike.fresh_not_known h.frames.right (hk rfl) (Clause.freshLabel_free env t)

theorem simulation_alike (V : Vocabulary) (env : Environment) :
    Simulation env V.Fits (State.Alike V env.settings.labelStem) where
  indistinct h := h.indistinct
  inGroupSource h hm :=
    Eval.alike_of_restores (Eval.restores_inGroupSource hm) fun _ _ => Eval.alike_inGroupSource h
  inChildScope h hm :=
    Eval.alike_of_restores (Eval.restores_inChildScope (fun h => h) hm) fun _ _ hs =>
      Eval.alike_inChildScope h hs.frames
  bindTable table hf hs :=
    alike_bindTable _ table (fun hl => hf.2.2 (fun hn => hs hn hl) hl) hf.2.1
  rebind table h := h.rebind table
  overProjection projected h := Eval.alike_overProjection h projected

/-- Expressions have one outcome from alike states, and queries keep the states alike besides. -/
def alikeCompositional (V : Vocabulary) (env : Environment) : Compositional env V.Fits :=
  (simulation_alike V env).compositional

/-- A query has the same outcome in two scopes in which the names it uses mean the same. -/
theorem evaluateSelect_agrees {query : Select} (hm : ∀ m ∈ query.mentions, V.Fits m) {s t : State}
    (h : FramesAlike V env.settings.labelStem s.scope.frames t.scope.frames) :
    ((evaluateSelect env query).runFrom s).1 = ((evaluateSelect env query).runFrom t).1 := by
  rw [evaluateSelect_eq]
  exact Eval.alike_inChildScope ((alikeCompositional V env).pipeline_inner query hm).1 h

end TableQuery
