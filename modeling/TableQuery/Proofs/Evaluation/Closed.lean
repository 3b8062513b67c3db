import TableQuery.Proofs.Evaluation.Nesting

/-! # Frames stay closed

In a closed frame tables stand under their own names, which are labels too, and labels stand for
tables of the frame. Whatever is bound, labelled, rebound or taken over from a `having` condition,
all frames are closed; this includes the frame of the rows that were grouped. Evaluations may fail
where they will: the frames are closed then, too. -/

namespace TableQuery

open Eval

namespace Frame

variable {frame : Frame} {table : Table}

/-- A table set under its own name, before it has any other label. -/
theorem Closed.setTable (h : frame.Closed) : (frame.setTable table.name table).Closed where
  name n t ht := by
    rw [table?_setTable] at ht
    split at ht
    · next hn => cases ht; exact hn.symm
    · exact h.name n t ht
  ownLabel n t ht := by
    rw [table?_setTable] at ht
    rw [tableName?_setTable]
    split at ht
    · next hn => rw [if_pos hn, hn]
    · next hn => rw [if_neg hn, h.ownLabel n t ht]
  table l n hl := by
    rw [tableName?_setTable] at hl
    rw [table?_setTable]
    by_cases hn : n = table.name
    · rw [if_pos hn]
      rfl
    · rw [if_neg hn]
      split at hl
      · exact absurd (Option.some.inj hl).symm hn
      · exact h.table l n hl

/-- A new label for a table of the frame. -/
theorem Closed.setLabel (h : frame.Closed) {label name : String}
    (hfree : frame.tableName? label = none) (hname : (frame.table? name).isSome) :
    (frame.setLabel label name).Closed where
  name := h.name
  ownLabel n t ht := by
    have hl := h.ownLabel n t ht
    rw [tableName?_setLabel, if_neg, hl]
    rintro rfl
    rw [hfree] at hl
    cases hl
  table l n hl := by
    rw [tableName?_setLabel] at hl
    split at hl
    · cases hl
      exact hname
    · exact h.table l n hl

end Frame

/-! ## States -/

/-- All frames are closed, and so is the frame that a `having` condition takes its aggregates
from. -/
structure State.Closed (s : State) : Prop where
  scope : ∀ frame ∈ s.scope.frames, frame.Closed
  groupSource : ∀ frame, s.groupSource = some frame → frame.Closed

namespace State

variable {s t : State}

theorem Closed.of_restored (h : s.Closed) (hr : s.Restored t) : t.Closed where
  scope := by rw [hr.scope]; exact h.scope
  groupSource := by rw [hr.groupSource]; exact h.groupSource

/-- Another innermost frame. -/
theorem Closed.replace (h : s.Closed) {frame : Frame} (hf : frame.Closed) (n : Nat) :
    State.Closed ⟨s.scope.replace frame, s.groupSource, n⟩ :=
  ⟨List.forall_mem_cons.mpr ⟨hf, (List.forall_mem_cons.mp h.scope).2⟩, h.groupSource⟩

theorem Closed.opened (h : s.Closed) : s.opened.Closed :=
  ⟨List.forall_mem_cons.mpr ⟨Frame.closed_empty, h.scope⟩, forall_of_eq_none rfl⟩

theorem Closed.innermost (h : s.Closed) : s.scope.innermost.Closed :=
  h.scope _ List.mem_cons_self

/-- Closed frames stay closed when a frame is opened or closed, a table set, a new label given,
the frame rebound, with the frame of before kept for `having` or not, and when that frame takes the
place of the innermost one for the argument of an aggregate. -/
structure StepsClosed (s : State) : Prop where
  push : s.opened.Closed
  pop : State.Closed { s with scope := s.scope.pop }
  set : ∀ table : Table, State.Closed { s with scope := s.scope.setTable table.name table }
  label : ∀ label name, s.scope.tableName? label = none →
    (s.scope.innermost.table? name).isSome →
    State.Closed { s with scope := s.scope.setLabel label name }
  rebind : ∀ table, State.Closed { s with scope := s.scope.rebind table }
  project : ∀ table,
    State.Closed { s with scope := s.scope.rebind table, groupSource := some s.scope.innermost }
  swap : s.inSource.Closed

theorem Closed.steps (h : s.Closed) : s.StepsClosed where
  push := h.opened
  pop := by
    refine ⟨?_, h.groupSource⟩
    unfold Scope.pop
    split
    · exact h.scope
    · next frame rest hr =>
      have houter := (List.forall_mem_cons.mp h.scope).2
      rw [hr] at houter
      exact houter
  set _ := h.replace h.innermost.setTable s.labelCounter
  label _ _ hfree hname :=
    h.replace (h.innermost.setLabel ((s.scope.tableName?_eq_none).mp hfree).1 hname) s.labelCounter
  rebind table := h.replace (s.scope.innermost.closed_rebound table) s.labelCounter
  project table := by
    refine ⟨(h.replace (s.scope.innermost.closed_rebound table) s.labelCounter).scope, ?_⟩
    intro frame hf
    cases hf
    exact h.innermost
  swap := by
    unfold inSource
    split
    · exact h
    · next source hs =>
      exact ⟨(h.replace (h.groupSource source hs) s.labelCounter).scope, forall_of_eq_none rfl⟩

/-- The clauses of a query leave closed frames closed. -/
theorem stepRelation_closed :
    StepRelation fun s t => s.Enclosed t ∧ (s.Closed → t.Closed) where
  of_restored h := ⟨h.enclosed, fun hs => hs.of_restored h⟩
  trans h h' := ⟨h.1.trans h'.1, fun hs => h'.2 (h.2 hs)⟩
  enclosed h := h.1
  bound s table label n hfree hn := by
    refine ⟨⟨rfl, rfl, hn⟩, fun hs => ?_⟩
    exact hs.replace (hs.innermost.bind ((s.scope.tableName?_eq_none).mp hfree).1) n
  rebound s table := by
    refine ⟨⟨rfl, rfl, Nat.le_refl _⟩, fun hs => ?_⟩
    exact hs.replace (s.scope.innermost.closed_rebound table) s.labelCounter

end State

/-! ## Stages -/

/-- Expressions restore the state, and the clauses of a query leave closed frames closed. -/
def closing (env : Environment) : Compositional env fun _ => True :=
  State.stepRelation_closed.compositional env

variable {env : Environment} {query top : Select} {s t : State} {place : Place} {items : Frame}
  {task : Task}

theorem closed_after {α : Type} {act : Eval α} (h : (closing env).inner act) (hs : s.Closed) :
    (act.runFrom s).2.Closed := (h s).2 hs

namespace Select

/-- Everything is evaluated in closed frames. -/
theorem Evaluates.closedState (h : query.Evaluates env s place items task t) (hs : s.Closed) :
    t.Closed where
  scope := h.closed hs.scope
  groupSource frame hf := by
    have hsound := h.sound
    rw [hsound.groupSource] at hf
    split at hf
    · cases hf
      exact hsound.binds.closed
    · cases hf

theorem inner_tableRef (env : Environment) (joined : Bool) (ref : TableRef) :
    (closing env).inner (evaluateTableRef env joined ref) :=
  (closing env).inner_tableRef joined (fun _ _ => trivial) fun inner _ =>
    (closing env).steps.query inner

theorem inner_join (env : Environment) (join : Join) (left : Table) :
    (closing env).inner (evaluateJoin env join left) := by
  rw [evaluateJoin_eq]
  refine (closing env).inner_join _ _ left (inner_tableRef env true join.table) ?_
  exact (closing env).outer_of_option (fun expr _ => (closing env).steps.expr expr) fun _ _ =>
    trivial

theorem inner_joined (env : Environment) (ref : TableRef) (joins : List Join) :
    (closing env).inner
      (Pipeline.joined (evaluateTableRef env false ref) (joins.map (evaluateJoin env))) := by
  refine (closing env).inner_bind (inner_tableRef env false ref) ?_
  refine (closing env).inner_foldlM _ fun act hm left => ?_
  obtain ⟨join, _, rfl⟩ := List.mem_map.mp hm
  exact inner_join env join left

/-- Called in the state `s`, the query has closed frames wherever a clause of it ends, well or
badly, and wherever it evaluates something. -/
structure ClosedStages (env : Environment) (query : Select) (s : State) : Prop where
  state : s.Closed
  opened : s.opened.Closed
  /-- After the from item and some of the joins. -/
  joined : ∀ {ref : TableRef} {joins rest : List Join}, query.source = some ref →
    query.joins = joins ++ rest →
    ((Pipeline.joined (evaluateTableRef env false ref)
      (joins.map (evaluateJoin env))).runFrom s.opened).2.Closed
  /-- After the table of the next join has been read, before the join. -/
  read : ∀ {ref : TableRef} {joins rest : List Join} {join : Join}, query.source = some ref →
    query.joins = joins ++ join :: rest →
    ((Pipeline.joined (evaluateTableRef env false ref) (joins.map (evaluateJoin env)) >>=
      fun _ => evaluateTableRef env true join.table).runFrom s.opened).2.Closed
  filtered : ∀ {ref : TableRef}, query.source = some ref →
    (((query.parts env).filtered (evaluateTableRef env false ref)).runFrom s.opened).2.Closed
  /-- After the select list has been evaluated on the groups. -/
  grouped : ∀ {ref : TableRef}, query.source = some ref →
    (((query.parts env).filtered (evaluateTableRef env false ref) >>= fun table =>
      Clause.groups env.functions query.groupBy query.columns table >>=
        Clause.groupTable (Clause.groupedName table) (Clause.outputNames query.columns)
          (query.parts env).columns).runFrom s.opened).2.Closed
  selected : ∀ {ref : TableRef}, query.source = some ref →
    (((query.parts env).selected env query
      (evaluateTableRef env false ref)).runFrom s.opened).2.Closed
  ordered : ∀ {ref : TableRef}, query.source = some ref →
    (((query.parts env).ordered env query
      (evaluateTableRef env false ref)).runFrom s.opened).2.Closed
  skipped : ∀ {ref : TableRef}, query.source = some ref →
    (((query.parts env).skipped env query
      (evaluateTableRef env false ref)).runFrom s.opened).2.Closed
  /-- At the end, before the frame of the query is closed. -/
  pipeline : ((query.pipeline env).runFrom s.opened).2.Closed
  result : ((evaluateSelect env query).runFrom s).2.Closed
  tasks : ∀ {place : Place} {items : Frame} {task : Task} {t : State},
    query.Evaluates env s place items task t → t.Closed

theorem closedStages (query : Select) (env : Environment) (hs : s.Closed) :
    query.ClosedStages env s := by
  have hparts := (closing env).steps.parts query
  have hfit : query.PartsFit fun _ => True := Select.partsFit fun _ _ => trivial
  have hsource := fun ref => inner_tableRef env false ref
  exact
    { state := hs
      opened := hs.opened
      joined := fun {ref joins rest} _ _ => closed_after (inner_joined env ref joins) hs.opened
      read := fun {ref joins rest join} _ _ =>
        closed_after ((closing env).inner_bind (inner_joined env ref joins) fun _ =>
          inner_tableRef env true join.table) hs.opened
      filtered := fun {ref} _ =>
        closed_after ((closing env).inner_filtered hparts hfit (hsource ref)) hs.opened
      grouped := fun {ref} _ => by
        refine closed_after ((closing env).inner_bind
          ((closing env).inner_filtered hparts hfit (hsource ref)) fun table => ?_) hs.opened
        refine (closing env).inner_of_outer ((closing env).outer_bind
          ((closing env).outer_groups _ _ table hfit.groupBy) fun groups => ?_)
        exact (closing env).outer_groupTable _ _ groups ((closing env).outer_columns hparts hfit)
      selected := fun {ref} _ =>
        closed_after ((closing env).inner_selected hparts hfit (hsource ref)) hs.opened
      ordered := fun {ref} _ =>
        closed_after ((closing env).inner_ordered hparts hfit (hsource ref)) hs.opened
      skipped := fun {ref} _ =>
        closed_after ((closing env).inner_skipped hparts hfit (hsource ref)) hs.opened
      pipeline := closed_after ((closing env).inner_pipeline hparts hfit) hs.opened
      result := hs.of_restored (evaluateSelect_moves_restored env query s)
      tasks := fun h => h.closedState hs }

end Select

/-- A query nested at whatever depth is called in closed frames. -/
theorem Nested.closedState {clear : Frame → Prop} (h : Nested env clear top s query t)
    (hs : s.Closed) : t.Closed := by
  induction h with
  | top => exact hs
  | inner _ he _ ih => exact he.closedState ih

end TableQuery
