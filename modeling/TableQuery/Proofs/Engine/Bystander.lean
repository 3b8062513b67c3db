import Mathlib
import TableQuery.Proofs.Engine.History
import TableQuery.Proofs.Evaluation.Bystander
import TableQuery.Proofs.Query.Identifiers

/-! # Tables that a query does not name

A caller may bind more tables than a query asks for. The query has the same result or the same
error with a table of an unrelated name and without it, and the labels that later queries are given
are the same as well. -/

namespace TableQuery

theorem Frame.Holds.eq_of_tableName? {frame : Frame} {bindings : List (String × Table)}
    (h : frame.Holds bindings) {label name : String} (hl : frame.tableName? label = some name) :
    label = name := by
  obtain ⟨_, _, hsplit, _⟩ := List.lookup_eq_some_iff.mp hl
  have hm : (label, name) ∈ frame.labels := by simp [hsplit]
  exact ((h.labels label name).mp hm).1

namespace Engine

variable {engine : Engine} {text z : String}

/-- In the innermost frame no other name may stand for the new one. -/
theorem query_beside (table : Table)
    (hlabel : ∀ name, name ≠ z → engine.state.scope.innermost.tableName? name ≠ some z)
    (hz : ∀ tokens, Token.scan? (engine.prepare text) = .ok tokens → Cursor.Names (· ≠ z) tokens)
    (hg : ∀ n, FreshLabel.numbered engine.env.settings.labelStem n ≠ z) :
    (engine.query text).1 = ((engine.bind z table).query text).1 ∧
      (engine.query text).2.state.labelCounter =
        ((engine.bind z table).query text).2.state.labelCounter := by
  have hprepare : (engine.bind z table).prepare text = engine.prepare text := rfl
  unfold query
  rw [hprepare]
  cases hq : Select.ofText? (engine.prepare text) with
  | error e => exact ⟨rfl, rfl⟩
  | ok query =>
    have hframes : FramesAgree (· ≠ z) engine.state.scope.frames
        (engine.bind z table).state.scope.frames := Frame.agree_setTable _ hlabel _
    exact evaluateSelect_beside (Select.ofText?_among hz hq) hg hframes rfl

/-- An extra table does not change what comes of a query in whose text its name is no identifier, if
the name is none of those that labels are generated from. -/
theorem unrelated_binding_ignored (settings : Settings) (functions : Registry)
    (bindings : List (String × Table)) (calls : List Call) (text z : String) (table : Table)
    (hz : ∀ tokens,
      Token.scan? ((session settings functions bindings calls).prepare text) = .ok tokens →
        ∀ t ∈ tokens, t.kind = .identifier → t.lexeme ≠ z)
    (hg : ∀ n, z ≠ FreshLabel.numbered settings.labelStem n) :
    let engine := session settings functions bindings calls
    ((engine.bind z table).query text).1 = (engine.query text).1 ∧
      ((engine.bind z table).query text).2.state.labelCounter =
        (engine.query text).2.state.labelCounter := by
  intro engine
  have hrests := rests_session settings functions bindings calls
  have hlabel : ∀ name, name ≠ z → engine.state.scope.innermost.tableName? name ≠ some z := by
    intro name hn hl
    rw [hrests.scope] at hl
    exact hn ((Frame.holds_bindAll _).eq_of_tableName? hl)
  have hgenerated : ∀ n, FreshLabel.numbered engine.env.settings.labelStem n ≠ z := by
    intro n he
    rw [env_session] at he
    exact hg n he.symm
  obtain ⟨houtcome, hcounter⟩ := query_beside table hlabel hz hgenerated
  exact ⟨houtcome.symm, hcounter.symm⟩

theorem table_beside_generated_labels :
    let engine := session .standard .standard [("t", .ofFields "t" ["x"])]
      [.query "select x from t"]
    ((engine.bind "u" (.ofFields "u" ["x"])).query "select t1.x from t").1 =
        (engine.query "select t1.x from t").1 ∧
      ((engine.bind "u" (.ofFields "u" ["x"])).query "select t1.x from t").2.state.labelCounter =
        (engine.query "select t1.x from t").2.state.labelCounter := by
  refine unrelated_binding_ignored .standard .standard _ _ "select t1.x from t" "u" _
    (fun tokens htokens t ht hk hu => ?_) fun n he => ?_
  · have hscan : (Token.scan? ((session .standard .standard [("t", .ofFields "t" ["x"])]
        [.query "select x from t"]).prepare "select t1.x from t")).map
          (fun tokens => tokens.map fun t => (t.kind, t.lexeme)) = .ok
        [(.keyword .select, "select"), (.identifier, "t1"), (.dot, "."), (.identifier, "x"),
          (.keyword .from, "from"), (.identifier, "t"), (.endOfText, "")] := by cbv
    have hm : (t.kind, t.lexeme) ∈ tokens.map fun t => (t.kind, t.lexeme) :=
      List.mem_map.mpr ⟨t, ht, rfl⟩
    rw [htokens] at hscan
    rw [show tokens.map (fun t => (t.kind, t.lexeme)) = _ from Except.ok.inj hscan, hk, hu] at hm
    exact absurd hm (by decide)
  · have hhead := congrArg (fun text => text.toList.head?) he
    simp [FreshLabel.numbered, Settings.standard] at hhead

/-- The name of a label that would be generated next is noticed. -/
theorem table_under_generated_label :
    let engine := session .standard .standard [("t", .ofFields "t" ["x"])] []
    ((engine.bind "t0" (.ofFields "t0" ["x"])).query "select x from t").2.state.labelCounter = 2 ∧
      (engine.query "select x from t").2.state.labelCounter = 1 := by
  constructor <;> cbv

end Engine

end TableQuery
