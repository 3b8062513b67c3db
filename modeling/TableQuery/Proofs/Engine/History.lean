import Mathlib
import TableQuery.Proofs.Engine.Session
import TableQuery.Proofs.Evaluation.Alike

/-! # Earlier calls and later queries

Of all that a call does, only the counter for labels is left when it ends. A later query can notice
it by a generated label alone; a query that does not write such labels down has the outcome that it
would have had on a new engine with the same tables. -/

namespace TableQuery

/-! ## Names in a query -/

/-- Rows are taken from a table that gets no label. -/
def Mention.LacksLabel : Mention → Prop
  | .column _ => False
  | .item source label => source ≠ none ∧ label = none

/-- If labels have to be generated for a query, then no name in it looks like one, except for names
that are bound. -/
def Select.AvoidsLabels (stem : String) (bound : List String) (query : Select) : Prop :=
  (∃ m ∈ query.mentions, m.LacksLabel) →
    ∀ m ∈ query.mentions, ∀ name ∈ m.names, ∀ n, name = FreshLabel.numbered stem n → name ∈ bound

/-- The names of a query as its vocabulary. -/
def Select.vocabulary (query : Select) : Vocabulary where
  reads name := ∃ m ∈ query.mentions, name ∈ m.names
  names name := ∃ m ∈ query.mentions, name ∈ m.names
  unlabelled := ∃ m ∈ query.mentions, m.LacksLabel

theorem Select.fits_vocabulary (query : Select) :
    ∀ m ∈ query.mentions, query.vocabulary.Fits m := by
  intro m hm
  cases m with
  | column ref =>
    intro qualifier hq
    exact ⟨_, hm, by simp [Mention.names, hq]⟩
  | item source label =>
    refine ⟨fun name hn => ?_, fun own ho => ?_, fun hs hl => ?_⟩
    · exact ⟨_, hm, by simp [Mention.names, hn]⟩
    · exact ⟨_, hm, by simp [Mention.names, ho]⟩
    · exact ⟨_, hm, hs, hl⟩

namespace Engine

variable {engine : Engine}

theorem env_after (call : Call) : (engine.after call).env = engine.env := by
  rw [after_eq_run]
  exact env_bindAll call.bindings

theorem env_afterAll (calls : List Call) : (engine.afterAll calls).env = engine.env := by
  induction calls generalizing engine with
  | nil => rfl
  | cons call rest ih => exact ih.trans (env_after call)

/-- Two engines at rest on one frame give the same outcome to a query, wherever their counters
are. -/
theorem query_of_rests {engine engine' : Engine} {root : Frame} (henv : engine.env = engine'.env)
    (h : engine.Rests root) (h' : engine'.Rests root) {text : String}
    (hr : ∀ query, Select.ofText? (engine.prepare text) = .ok query →
      Reserved query.vocabulary engine.env.settings.labelStem [root]) :
    (engine.query text).1 = (engine'.query text).1 := by
  have hp : engine'.prepare text = engine.prepare text := by
    rw [prepare, prepare, henv]
  unfold Engine.query
  rw [hp]
  cases hq : Select.ofText? (engine.prepare text) with
  | error e => rfl
  | ok query =>
    show ((evaluateSelect engine.env query).runFrom engine.state).1 =
      ((evaluateSelect engine'.env query).runFrom engine'.state).1
    rw [← henv]
    refine evaluateSelect_agrees query.fits_vocabulary ?_
    have hf : engine.state.scope.frames = [root] := by rw [h.scope]; rfl
    have hf' : engine'.state.scope.frames = [root] := by rw [h'.scope]; rfl
    rw [hf, hf']
    exact ⟨fun _ _ => rfl, fun _ _ => rfl, fun _ _ => rfl, hr query hq, hr query hq⟩

theorem env_session (settings : Settings) (functions : Registry)
    (bindings : List (String × Table)) (calls : List Call) :
    (session settings functions bindings calls).env = ⟨settings, functions⟩ :=
  (env_afterAll calls).trans (env_bindAll bindings)

/-- Earlier calls do not change the outcome of a query that avoids generated labels: it is that on a
new engine with the tables that have been bound, which are the first ones after calls that bind
none. -/
theorem query_independent_of_history (settings : Settings) (functions : Registry)
    (bindings : List (String × Table)) (calls : List Call) (text : String)
    (h : ∀ query, Select.ofText? ((Engine.new settings functions).prepare text) = .ok query →
      query.AvoidsLabels settings.labelStem ((allBindings bindings calls).map (·.1))) :
    ((session settings functions bindings calls).query text).1 =
      ((session settings functions (allBindings bindings calls) []).query text).1 := by
  have henv := env_session settings functions bindings calls
  have hl := rests_session settings functions bindings calls
  have hr := rests_session settings functions (allBindings bindings calls) []
  have hbound : allBindings (allBindings bindings calls) [] = allBindings bindings calls :=
    List.append_nil _
  rw [hbound] at hr
  refine query_of_rests (henv.trans (env_session _ _ _ _).symm) hl hr fun query hq => ?_
  rw [prepare, henv] at hq
  rw [henv]
  rintro hu n (⟨m, hm, hn⟩ | ⟨m, hm, hn⟩)
  all_goals
    have hb := h query hq hu m hm _ hn n rfl
    have hs := (Frame.holds_bindAll _).tableName?_eq hb
    simp [hs]

theorem query_unaffected_by_generated_label :
    ((session .standard .standard [("t", .ofFields "t" ["x"])]
      [.query "select x from t", .script "select"]).query "select t.x from t").1 =
      ((session .standard .standard [("t", .ofFields "t" ["x"])] []).query
        "select t.x from t").1 := by
  refine query_independent_of_history .standard .standard _
    [.query "select x from t", .script "select"] "select t.x from t" fun query hq => ?_
  have hp : Select.ofText? ((Engine.new .standard .standard).prepare "select t.x from t") = .ok
      { pos := ⟨1, 1⟩, star := false, columns := [⟨.column ⟨⟨1, 10⟩, "t", "x"⟩, none⟩],
        source := some ⟨⟨1, 17⟩, .table "t", none⟩, joins := [], filter := none, groupBy := [],
        having := none, orderBy := [], limit := none, offset := none } := by cbv
  rw [hp] at hq
  cases hq
  -- its names are bound, so none of them can be a generated label
  intro _ m hm name hn n he
  clear he
  revert m name
  decide

/-- A query that writes a generated label down depends on the queries before it. -/
theorem generated_label_depends_on_history :
    ¬∀ (settings : Settings) (functions : Registry) (bindings : List (String × Table))
      (texts : List String) (text : String),
      ((session settings functions bindings (texts.map .query)).query text).1 =
        ((session settings functions bindings []).query text).1 := by
  intro h
  have hq := h .standard .standard [("t", .ofFields "t" ["x"])]
    ["select x from t"] "select t0.x from t"
  have hlater : ((session .standard .standard [("t", .ofFields "t" ["x"])]
      (["select x from t"].map .query)).query "select t0.x from t").1 =
      .error (.tableNotFound "t0") := by cbv
  have hfirst : ((session .standard .standard [("t", .ofFields "t" ["x"])]
      []).query "select t0.x from t").1 = .ok (.ofFields "t" ["x"]) := by cbv
  rw [hlater, hfirst] at hq
  cases hq

end Engine

end TableQuery
