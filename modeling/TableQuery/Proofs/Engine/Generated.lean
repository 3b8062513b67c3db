import TableQuery.Proofs.Engine.History
import TableQuery.Proofs.Evaluation.Generated

/-! # Labels in the life of an engine

An engine keeps its counter from one call to the next, after failures too. Whatever happens to it,
all the labels that it ever generates have rising numbers, and so they are different. -/

namespace TableQuery

open Eval

namespace Engine

/-! ## Events -/

/-- What may happen to an engine. -/
inductive Event where
  | bind (name : String) (table : Table)
  /-- There are other functions from now on. -/
  | register (functions : Registry)
  | call (call : Call)
  | evaluate (expr : Expr) (context : Context)
  /-- A label is asked for, outside any query. -/
  | label

/-- The engine after an event, with or without a failure. -/
def next (engine : Engine) : Event → Engine
  | .bind name table => engine.bind name table
  | .register functions => { engine with env.functions := functions }
  | .call call => engine.after call
  | .evaluate expr context => (engine.evaluate expr context).2
  | .label => (engine.run (freshLabel engine.env.settings)).2

def nextAll (engine : Engine) (events : List Event) : Engine := events.foldl next engine

/-- The labels that an event has an engine generate. -/
def Generates (engine : Engine) : Event → List String → Prop
  | .bind _ _, labels | .register _, labels => labels = []
  | .call call, labels =>
    Eval.Generates engine.env.settings ((engine.statements call).mapM (evaluateSelect engine.env))
      (engine.bindAll call.bindings).state labels
  | .evaluate expr context, labels =>
    Eval.Generates engine.env.settings (TableQuery.evaluate engine.env expr context) engine.state
      labels
  | .label, labels =>
    Eval.Generates engine.env.settings (freshLabel engine.env.settings) engine.state labels

/-- The labels that an engine generates through some events, one after the other. -/
inductive GeneratesAll : Engine → List Event → List String → Prop where
  | nil (engine : Engine) : GeneratesAll engine [] []
  | cons {engine : Engine} {event : Event} {events : List Event} {labels more : List String}
    (h : engine.Generates event labels) (hrest : GeneratesAll (engine.next event) events more) :
    GeneratesAll engine (event :: events) (labels ++ more)

variable {engine : Engine} {event : Event} {events : List Event} {labels : List String}

/-! ## Every life -/

theorem settings_next (event : Event) :
    (engine.next event).env.settings = engine.env.settings := by
  cases event with
  | call call => exact congrArg Environment.settings (env_after call)
  | _ => rfl

theorem labelCounter_bindAll (bindings : List (String × Table)) :
    (engine.bindAll bindings).state.labelCounter = engine.state.labelCounter := by
  induction bindings generalizing engine with
  | nil => rfl
  | cons binding rest ih => exact ih

/-- Every event has its labels. -/
theorem exists_generates (engine : Engine) (event : Event) :
    ∃ labels, engine.Generates event labels := by
  cases event with
  | bind | register => exact ⟨[], rfl⟩
  | call call =>
    exact (assembling engine.env).outer_mapM _
      (fun query _ => evaluateSelect_assembled engine.env query) _
  | evaluate expr context => exact evaluate_assembled engine.env expr context engine.state
  | label => exact ⟨_, .freshLabel rfl⟩

theorem exists_generatesAll (engine : Engine) (events : List Event) :
    ∃ labels, engine.GeneratesAll events labels := by
  induction events generalizing engine with
  | nil => exact ⟨[], .nil engine⟩
  | cons event rest ih =>
    obtain ⟨labels, h⟩ := engine.exists_generates event
    obtain ⟨more, hrest⟩ := ih (engine.next event)
    exact ⟨labels ++ more, .cons h hrest⟩

/-- One event moves the counter with its labels. -/
theorem Generates.rising (h : engine.Generates event labels) :
    FreshLabel.Rising engine.env.settings.labelStem engine.state.labelCounter labels
      (engine.next event).state.labelCounter := by
  cases event with
  | bind | register =>
    cases h
    exact .nil _
  | call call =>
    have hrising := Eval.Generates.rising h
    -- a call binds its tables before it evaluates anything, and that does not move the counter
    rw [labelCounter_bindAll] at hrising
    show FreshLabel.Rising _ _ _ (engine.after call).state.labelCounter
    rw [after_eq_run]
    exact hrising
  | evaluate | label => exact Eval.Generates.rising h

theorem GeneratesAll.rising (h : engine.GeneratesAll events labels) :
    FreshLabel.Rising engine.env.settings.labelStem engine.state.labelCounter labels
      (engine.nextAll events).state.labelCounter := by
  induction h with
  | nil engine => exact .nil _
  | @cons engine event events labels more h _ ih =>
    -- labels are numbered on one stem, since no event changes the settings
    rw [settings_next] at ih
    exact h.rising.append ih

/-- The search for a label ends with one that no frame uses, whatever the frames and the counter are;
it leaves all but the counter alone, which goes up. No label is generated twice in the life of an
engine. What an engine generates is all that moves its counter. -/
theorem labels_generated_once :
    (∀ (settings : Settings) (s : State), ∃ label t,
      Returns (freshLabel settings) s label t ∧ Finds settings s label t) ∧
    ∀ (engine : Engine) (events : List Event),
      (∃ labels, engine.GeneratesAll events labels) ∧
      ∀ labels, engine.GeneratesAll events labels → labels.Nodup ∧
        FreshLabel.Rising engine.env.settings.labelStem engine.state.labelCounter labels
          (engine.nextAll events).state.labelCounter := by
  refine ⟨freshLabel_finds, fun engine events => ⟨engine.exists_generatesAll events, ?_⟩⟩
  intro labels h
  have hrising := h.rising
  exact ⟨hrising.nodup, hrising⟩

/-- The query passes over a table that is bound under its first choice, and so does the search after
it. -/
theorem labels_between_bindings :
    let row := Table.ofFields "t" ["x"]
    let engine := session .standard .standard [("t", row), ("t0", row)] []
    let query : Select := ⟨.start, false, [⟨.column ⟨.start, none, "x"⟩, none⟩],
      some ⟨.start, .table "t", none⟩, [], none, [], none, [], none, none⟩
    let events : List Event := [.call (.execute [] query), .bind "t2" row, .label]
    engine.GeneratesAll events ["t1", "t3"] ∧ ["t1", "t3"].Nodup ∧
      FreshLabel.Rising "t" 0 ["t1", "t3"] 4 := by
  intro row engine query events
  have hfind : engine.state.opened.scope.find? "t" = some row := by cbv
  obtain ⟨label, t, more, hlabel, hmore⟩ : ∃ label t more,
      Returns (freshLabel engine.env.settings) engine.state.opened label t ∧
        (evaluateSelect engine.env query).Generates engine.env.settings engine.state
          (label :: more) := Select.generates_first rfl rfl rfl hfind
  have hfirst : label = "t1" := by
    have hrun : ((freshLabel engine.env.settings).runFrom engine.state.opened).1 = .ok "t1" := by
      cbv
    rw [hlabel] at hrun
    exact Except.ok.inj hrun
  have hquery : engine.Generates (.call (.execute [] query)) ["t1"] := by
    obtain ⟨rest, hrest⟩ : ∃ rest, Eval.Generates engine.env.settings
        ([query].mapM (evaluateSelect engine.env)) engine.state ("t1" :: more ++ rest) := by
      rw [List.mapM_cons, ← hfirst]
      have hnone : (([] : List Select).mapM (evaluateSelect engine.env)).Assembled
          engine.env.settings := (assembling engine.env).outer_mapM [] (List.forall_mem_nil _)
      exact hmore.extend fun table => hnone.bind fun rest =>
        (assembling engine.env).outer_pure (table :: rest)
    have hevent : engine.Generates (.call (.execute [] query)) ("t1" :: more ++ rest) := hrest
    have hrising := hevent.rising
    have hcounter : (engine.next (.call (.execute [] query))).state.labelCounter = 2 := by cbv
    rw [hcounter] at hrising
    have hnil : more ++ rest = [] := FreshLabel.Rising.eq_nil (k := 1) hrising
    rwa [List.cons_append, hnil] at hevent
  have hall : engine.GeneratesAll events (["t1"] ++ ([] ++ (["t3"] ++ []))) := by
    have hlast : ((freshLabel engine.env.settings).runFrom
        (engine.nextAll [.call (.execute [] query), .bind "t2" row]).state).1 = .ok "t3" := by cbv
    have hlabel : (engine.nextAll [.call (.execute [] query), .bind "t2" row]).Generates .label
        ["t3"] := Eval.Generates.freshLabel (Prod.ext hlast rfl)
    have hbind : (engine.next (.call (.execute [] query))).Generates (.bind "t2" row) [] := rfl
    exact .cons hquery (.cons hbind (.cons hlabel (.nil _)))
  have hcounter : (engine.nextAll events).state.labelCounter = 4 := by cbv
  have hlabels := (labels_generated_once.2 engine events).2 _ hall
  rw [hcounter] at hlabels
  exact ⟨hall, hlabels⟩

end Engine

end TableQuery
