import TableQuery.Engine
import TableQuery.Proofs.Evaluation.Restore
import TableQuery.Proofs.Scope

/-! # Sessions

A caller binds tables and asks for queries, scripts and statements in any order, and some of them
fail. Between two calls the scope of an engine is one frame, and that frame holds what the caller
has bound: the last table of each name, and no label but the names. -/

namespace TableQuery

/-! ## Bindings -/

@[simp] theorem Table.named_name (table : Table) (name : String) :
    (table.named name).name = name := by
  unfold named
  split
  · assumption
  · rfl

/-- The table with one row, of nulls. -/
def Table.ofFields (name : String) (fields : List String) : Table :=
  ⟨name, fields, [Row.nulls name fields]⟩

namespace Frame

/-- The frame with more tables bound under names. -/
def bindAll (frame : Frame) (bindings : List (String × Table)) : Frame :=
  bindings.foldl (fun frame binding => frame.setTable binding.1 (binding.2.named binding.1)) frame

/-- A frame holds some bindings: the last one for each name, and labels for nothing else. -/
structure Holds (frame : Frame) (bindings : List (String × Table)) : Prop where
  tables : ∀ name table, (name, table) ∈ frame.tables ↔
    ∃ last, bindings.reverse.lookup name = some last ∧ table = last.named name
  labels : ∀ label name, (label, name) ∈ frame.labels ↔
    label = name ∧ name ∈ bindings.map (·.1)

theorem mem_tables_setTable (frame : Frame) (name : String) (table : Table)
    (entry : String × Table) :
    entry ∈ (frame.setTable name table).tables ↔
      (entry ∈ frame.tables ∧ entry.1 ≠ name) ∨ entry = (name, table) := by
  simp [setTable, setLabel]

theorem mem_labels_setTable (frame : Frame) (name : String) (table : Table)
    (entry : String × String) :
    entry ∈ (frame.setTable name table).labels ↔
      entry = (name, table.name) ∨ (entry ∈ frame.labels ∧ entry.1 ≠ name) := by
  simp [setTable, setLabel]

theorem holds_empty : Frame.empty.Holds [] where
  tables _ _ := by simp [empty]
  labels _ _ := by simp [empty]

theorem Holds.setTable {frame : Frame} {bindings : List (String × Table)}
    (h : frame.Holds bindings) (name : String) (table : Table) :
    (frame.setTable name (table.named name)).Holds (bindings ++ [(name, table)]) where
  tables n t := by
    rw [mem_tables_setTable, h.tables, List.reverse_append, List.lookup_append]
    by_cases hn : n = name
    · subst hn
      simp
    · have hb : (n == name) = false := by simpa using hn
      simp [hn, hb, List.lookup_cons]
  labels l n := by
    simp only [mem_labels_setTable, h.labels, Table.named_name, Prod.mk.injEq, List.map_append,
      List.mem_append, List.map_cons, List.map_nil, List.mem_singleton]
    constructor
    · rintro (⟨rfl, rfl⟩ | ⟨⟨rfl, hm⟩, _⟩)
      · exact ⟨rfl, .inr rfl⟩
      · exact ⟨rfl, .inl hm⟩
    · rintro ⟨rfl, hm⟩
      by_cases hl : l = name
      · exact .inl ⟨hl, hl⟩
      · exact .inr ⟨⟨rfl, hm.resolve_right hl⟩, hl⟩

theorem Holds.bindAll {frame : Frame} {bindings : List (String × Table)}
    (h : frame.Holds bindings) (more : List (String × Table)) :
    (frame.bindAll more).Holds (bindings ++ more) := by
  induction more generalizing frame bindings with
  | nil => rwa [List.append_nil]
  | cons binding rest ih =>
    have hr := ih (h.setTable binding.1 binding.2)
    rwa [List.append_assoc] at hr

theorem holds_bindAll (bindings : List (String × Table)) :
    (Frame.empty.bindAll bindings).Holds bindings := holds_empty.bindAll bindings

theorem Holds.tableName?_eq {frame : Frame} {bindings : List (String × Table)}
    (h : frame.Holds bindings) {name : String} (hn : name ∈ bindings.map (·.1)) :
    frame.tableName? name = some name := by
  have hs : (frame.tableName? name).isSome := by
    rw [Frame.tableName?_isSome_iff]
    exact List.mem_map.mpr ⟨(name, name), (h.labels name name).mpr ⟨rfl, hn⟩, rfl⟩
  obtain ⟨found, hf⟩ := Option.isSome_iff_exists.mp hs
  obtain ⟨_, _, hsplit, _⟩ := List.lookup_eq_some_iff.mp hf
  have hm : (name, found) ∈ frame.labels := by simp [hsplit]
  rw [hf, ← ((h.labels name found).mp hm).1]

theorem Holds.mem_bound {frame : Frame} {bindings : List (String × Table)}
    (h : frame.Holds bindings) {name : String} {table : Table}
    (ht : frame.table? name = some table) : name ∈ bindings.map (·.1) ∧ table.name = name := by
  obtain ⟨_, _, hsplit, _⟩ := List.lookup_eq_some_iff.mp ht
  have hm : (name, table) ∈ frame.tables := by simp [hsplit]
  obtain ⟨last, hl, rfl⟩ := (h.tables name table).mp hm
  obtain ⟨_, _, hsplit, _⟩ := List.lookup_eq_some_iff.mp hl
  have hb : (name, last) ∈ bindings := by
    rw [← List.mem_reverse]
    simp [hsplit]
  exact ⟨List.mem_map.mpr ⟨_, hb, rfl⟩, last.named_name name⟩

theorem Holds.table?_isSome {frame : Frame} {bindings : List (String × Table)}
    (h : frame.Holds bindings) {name : String} (hn : name ∈ bindings.map (·.1)) :
    (frame.table? name).isSome := by
  obtain ⟨entry, he, rfl⟩ := List.mem_map.mp hn
  have hs : (bindings.reverse.lookup entry.1).isSome :=
    List.lookup_isSome_iff.mpr ⟨entry, List.mem_reverse.mpr he, by simp⟩
  obtain ⟨last, hl⟩ := Option.isSome_iff_exists.mp hs
  exact List.lookup_isSome_iff.mpr ⟨_, (h.tables entry.1 _).mpr ⟨last, hl, rfl⟩, by simp⟩

theorem Holds.closed {frame : Frame} {bindings : List (String × Table)}
    (h : frame.Holds bindings) : frame.Closed where
  name _ _ ht := (h.mem_bound ht).2
  ownLabel _ _ ht := h.tableName?_eq (h.mem_bound ht).1
  table label name hl := by
    obtain ⟨_, _, hsplit, _⟩ := List.lookup_eq_some_iff.mp hl
    have hm : (label, name) ∈ frame.labels := by simp [hsplit]
    exact h.table?_isSome ((h.labels label name).mp hm).2

end Frame

/-! ## Calls -/

namespace Engine

/-- What a caller asks of an engine. -/
inductive Call where
  | query (text : String)
  | script (text : String)
  /-- A statement, with tables that are bound before it is executed. -/
  | execute (bindings : List (String × Table)) (query : Select)

/-- The tables that a call binds. -/
def Call.bindings : Call → List (String × Table)
  | .query _ | .script _ => []
  | .execute bindings _ => bindings

/-- The statements of a call. A text that cannot be read has none. -/
def statements (engine : Engine) : Call → List Select
  | .query text => (Select.ofText? (engine.prepare text)).toOption.toList
  | .script text => (Select.scriptOfText? (engine.prepare text)).toOption.getD []
  | .execute _ query => [query]

/-- The engine after a call, with or without a failure. -/
def after (engine : Engine) : Call → Engine
  | .query text => (engine.query text).2
  | .script text => (engine.script text).2
  | .execute bindings query => ((engine.bindAll bindings).execute query).2

def afterAll (engine : Engine) (calls : List Call) : Engine := calls.foldl after engine

/-- The engine of a caller who binds tables and makes some calls. -/
def session (settings : Settings) (functions : Registry) (bindings : List (String × Table))
    (calls : List Call) : Engine :=
  ((Engine.new settings functions).bindAll bindings).afterAll calls

/-- All tables that a caller binds, at first and with the calls. -/
def allBindings (bindings : List (String × Table)) (calls : List Call) : List (String × Table) :=
  bindings ++ calls.flatMap Call.bindings

variable {engine : Engine}

theorem env_bindAll (bindings : List (String × Table)) :
    (engine.bindAll bindings).env = engine.env := by
  induction bindings generalizing engine with
  | nil => rfl
  | cons binding rest ih => exact ih

/-- Statements executed one after the other are one evaluation. -/
theorem executeAll_eq_run (queries : List Select) :
    engine.executeAll queries = engine.run (queries.mapM (evaluateSelect engine.env)) := by
  induction queries generalizing engine with
  | nil => rfl
  | cons query rest ih =>
    rw [List.mapM_cons]
    cases hq : (evaluateSelect engine.env query).runFrom engine.state with
    | mk outcome t =>
      have hexecute : engine.execute query = (outcome, { engine with state := t }) := by
        unfold execute run
        rw [hq]
      cases outcome with
      | error e => simp only [executeAll, hexecute, run, Eval.runFrom_bind, hq]
      | ok table =>
        have hrest := @ih { engine with state := t }
        simp only [executeAll, hexecute, hrest, run, Eval.runFrom_bind, hq]
        cases (rest.mapM (evaluateSelect engine.env)).runFrom t with
        | mk outcome u => cases outcome <;> rfl

theorem executeAll_singleton (query : Select) :
    (engine.executeAll [query]).2 = (engine.execute query).2 := by
  unfold executeAll
  cases engine.execute query with
  | mk outcome after => cases outcome <;> rfl

/-- A call is one evaluation, that of its statements one after the other. -/
theorem after_eq_run (call : Call) :
    engine.after call = ((engine.bindAll call.bindings).run
      ((engine.statements call).mapM (evaluateSelect engine.env))).2 := by
  rw [← env_bindAll call.bindings, ← executeAll_eq_run]
  cases call with
  | query text =>
    show (engine.query text).2 =
      (engine.executeAll (Select.ofText? (engine.prepare text)).toOption.toList).2
    unfold Engine.query
    cases Select.ofText? (engine.prepare text) with
    | error e => rfl
    | ok query => exact (executeAll_singleton query).symm
  | script text =>
    show (engine.script text).2 =
      (engine.executeAll ((Select.scriptOfText? (engine.prepare text)).toOption.getD [])).2
    unfold Engine.script
    cases Select.scriptOfText? (engine.prepare text) <;> rfl
  | execute bindings query => exact (executeAll_singleton query).symm

/-! ## Between calls -/

/-- The engine is between two calls, with one frame. -/
structure Rests (engine : Engine) (root : Frame) : Prop where
  scope : engine.state.scope = .ofRoot root
  groupSource : engine.state.groupSource = none

variable {root : Frame}

theorem rests_new (settings : Settings) (functions : Registry) :
    (Engine.new settings functions).Rests .empty := ⟨rfl, rfl⟩

theorem Rests.bindAll (h : engine.Rests root) (bindings : List (String × Table)) :
    (engine.bindAll bindings).Rests (root.bindAll bindings) := by
  induction bindings generalizing engine root with
  | nil => exact h
  | cons binding rest ih =>
    have hs : (engine.bind binding.1 binding.2).state.scope =
        .ofRoot (root.setTable binding.1 (binding.2.named binding.1)) := by
      show engine.state.scope.setTable _ _ = _
      rw [h.scope]
      rfl
    exact ih ⟨hs, h.groupSource⟩

theorem Rests.run {α : Type} {act : Eval α} (h : engine.Rests root)
    (ha : act.Moves State.Restored) : (engine.run act).2.Rests root :=
  ⟨(ha engine.state).scope.trans h.scope, (ha engine.state).groupSource.trans h.groupSource⟩

theorem Rests.after (h : engine.Rests root) (call : Call) :
    (engine.after call).Rests (root.bindAll call.bindings) := by
  rw [after_eq_run]
  refine (h.bindAll call.bindings).run ?_
  exact (State.stepRelation_enclosed.compositional engine.env).outer_mapM _ fun query _ =>
    evaluateSelect_moves_restored engine.env query

theorem Rests.afterAll (h : engine.Rests root) (calls : List Call) :
    (engine.afterAll calls).Rests (root.bindAll (calls.flatMap Call.bindings)) := by
  induction calls generalizing engine root with
  | nil => exact h
  | cons call rest ih =>
    have hr := ih (h.after call)
    rw [Frame.bindAll, Frame.bindAll, ← List.foldl_append] at hr
    exact hr

theorem rests_session (settings : Settings) (functions : Registry)
    (bindings : List (String × Table)) (calls : List Call) :
    (session settings functions bindings calls).Rests
      (Frame.empty.bindAll (allBindings bindings calls)) := by
  have hr := ((rests_new settings functions).bindAll bindings).afterAll calls
  rw [Frame.bindAll, Frame.bindAll, ← List.foldl_append] at hr
  exact hr

/-- Expressions and queries restore the scope and the frame behind `having`, whatever the outcome;
so after any calls the scope is the root frame, with the tables that the caller has bound. -/
theorem evaluation_restores_scope :
    (∀ env expr context (s : State),
      s.Restored ((TableQuery.evaluate env expr context).runFrom s).2) ∧
    (∀ env query (s : State), s.Restored ((evaluateSelect env query).runFrom s).2) ∧
    ∀ settings functions bindings calls, ∃ root : Frame,
      (session settings functions bindings calls).Rests root ∧
        root.Holds (allBindings bindings calls) := by
  refine ⟨evaluate_moves_restored, evaluateSelect_moves_restored, ?_⟩
  intro settings functions bindings calls
  exact ⟨_, rests_session settings functions bindings calls,
    Frame.holds_empty.bindAll (allBindings bindings calls)⟩

end Engine

end TableQuery
