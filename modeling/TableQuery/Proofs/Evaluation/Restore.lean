import TableQuery.Proofs.Evaluation.Compositional
import TableQuery.Proofs.Evaluation.FreshLabel

/-! # Evaluations close what they open

Whatever a query opens, it closes on both ways out, and nothing but the counter for labels moves.
Inside its own frame a query may do more. What it does there is described by a step relation; every
step relation that allows for binding and rebinding a table holds of every clause, whether it
succeeds or fails. -/

namespace TableQuery

/-! ## What may change -/

/-- The scope and the frame behind a `having` condition are as they were. -/
structure State.Restored (s t : State) : Prop where
  scope : t.scope = s.scope
  groupSource : t.groupSource = s.groupSource
  labelCounter : s.labelCounter ≤ t.labelCounter

/-- Everything outside the innermost frame is as it was. -/
structure State.Enclosed (s t : State) : Prop where
  outer : t.scope.outer = s.scope.outer
  groupSource : t.groupSource = s.groupSource
  labelCounter : s.labelCounter ≤ t.labelCounter

namespace State

variable {s t u : State}

theorem Restored.refl (s : State) : s.Restored s := ⟨rfl, rfl, Nat.le_refl _⟩

theorem Restored.trans (h : s.Restored t) (h' : t.Restored u) : s.Restored u where
  scope := h'.scope.trans h.scope
  groupSource := h'.groupSource.trans h.groupSource
  labelCounter := Nat.le_trans h.labelCounter h'.labelCounter

theorem Restored.enclosed (h : s.Restored t) : s.Enclosed t where
  outer := by rw [h.scope]
  groupSource := h.groupSource
  labelCounter := h.labelCounter

theorem Enclosed.trans (h : s.Enclosed t) (h' : t.Enclosed u) : s.Enclosed u where
  outer := h'.outer.trans h.outer
  groupSource := h'.groupSource.trans h.groupSource
  labelCounter := Nat.le_trans h.labelCounter h'.labelCounter

end State

/-! ## Step relations -/

/-- What the clauses of a query may do to the state, step by step. -/
structure StepRelation (R : State → State → Prop) : Prop where
  of_restored : ∀ {s t : State}, s.Restored t → R s t
  trans : ∀ {s t u : State}, R s t → R t u → R s u
  enclosed : ∀ {s t : State}, R s t → s.Enclosed t
  bound : ∀ (s : State) (table : Table) (label : String) (n : Nat),
    s.scope.tableName? label = none → s.labelCounter ≤ n →
    R s { s with scope := s.scope.bind table label, labelCounter := n }
  rebound : ∀ (s : State) (table : Table), R s { s with scope := s.scope.rebind table }

namespace Eval

/-- The state after an evaluation, with or without a failure, is related to the one before. -/
def Moves (R : State → State → Prop) {α : Type} (act : Eval α) : Prop :=
  ∀ s, R s (act.runFrom s).2

variable {R : State → State → Prop} {α β : Type}

theorem Moves.bind (trans : ∀ s t u, R s t → R t u → R s u) {act : Eval α}
    {next : α → Eval β} (ha : act.Moves R) (hn : ∀ a, (next a).Moves R) :
    (act >>= next).Moves R := by
  intro s
  have h := ha s
  rw [runFrom_bind]
  cases hr : act.runFrom s with
  | mk outcome t =>
    rw [hr] at h
    cases outcome with
    | error e => exact h
    | ok a => exact trans _ _ _ h (hn a t)

/-! ## Brackets -/

theorem restores_inGroupSource {act : Eval α} (h : act.Moves State.Restored) :
    act.inGroupSource.Moves State.Restored := by
  intro s
  unfold inGroupSource
  obtain ⟨scope, groupSource, n⟩ := s
  cases groupSource with
  | none => exact h _
  | some source =>
    have hr := h ⟨scope.replace source, none, n⟩
    refine ⟨?_, ?_, hr.labelCounter⟩
    · show (act.runFrom _).2.scope.replace scope.innermost = scope
      rw [hr.scope]
      rfl
    · show some (act.runFrom _).2.scope.innermost = some source
      rw [hr.scope]
      rfl

theorem restores_inChildScope (hR : ∀ {s t : State}, R s t → s.Enclosed t) {act : Eval α}
    (h : act.Moves R) : act.inChildScope.Moves State.Restored := by
  intro s
  have he := hR (h { s with scope := s.scope.push, groupSource := none })
  refine ⟨?_, rfl, he.labelCounter⟩
  -- the frames around the new one are all frames of before
  have ho : (act.runFrom _).2.scope.outer = s.scope.frames := he.outer
  show (act.runFrom _).2.scope.pop = s.scope
  unfold Scope.pop
  rw [ho]
  rfl

theorem moves_overProjection (hR : StepRelation R) {act : Eval α} (projected : Table)
    (h : act.Moves State.Restored) : (act.overProjection projected).Moves R := by
  intro s
  have hr := h ⟨s.scope.rebind projected, some s.scope.innermost, s.labelCounter⟩
  refine hR.trans (hR.rebound s projected) (hR.of_restored ⟨?_, rfl, hr.labelCounter⟩)
  exact hr.scope

end Eval

namespace StepRelation

variable {R : State → State → Prop}

theorem bindTable (hR : StepRelation R) (env : Environment) (label : Option String)
    (table : Table) : (Clause.bindTable env label table).Moves R := by
  intro s
  rcases Clause.bindTable_cases env table s label with ⟨_, h⟩ | ⟨free, n, hfree, _, hn, h⟩
  · rw [h]
    exact hR.of_restored (.refl s)
  · rw [h]
    exact hR.bound s table free n hfree hn

/-- Expressions restore the state, and the clauses of a query take steps of the relation. -/
def compositional (hR : StepRelation R) (env : Environment) :
    Compositional env fun _ => True where
  outer act := act.Moves State.Restored
  inner act := act.Moves R
  inner_of_outer h s := hR.of_restored (h s)
  outer_ofExcept _ s := .refl s
  outer_bind ha hn := .bind (R := State.Restored) (fun _ _ _ h h' => h.trans h') ha hn
  inner_bind ha hn := .bind (R := R) (fun _ _ _ h h' => hR.trans h h') ha hn
  outer_mapError _ h s := h s
  outer_reading _ _ s := .refl s
  outer_inGroupSource := Eval.restores_inGroupSource
  outer_inChildScope := Eval.restores_inChildScope hR.enclosed
  inner_bindTable _ label table _ _ := hR.bindTable env label table
  inner_rebind table s := hR.rebound s table
  inner_overProjection := Eval.moves_overProjection hR

/-- All clauses of a query together take the state along the relation. -/
theorem moves_pipeline (hR : StepRelation R) (env : Environment) (query : Select) :
    (query.pipeline env).Moves R :=
  (hR.compositional env).pipeline_inner query fun _ _ => trivial

end StepRelation

/-! ## Expressions and queries -/

theorem State.stepRelation_enclosed : StepRelation State.Enclosed where
  of_restored h := h.enclosed
  trans h h' := h.trans h'
  enclosed h := h
  bound _ _ _ _ _ hn := ⟨rfl, rfl, hn⟩
  rebound _ _ := ⟨rfl, rfl, Nat.le_refl _⟩

variable (env : Environment)

theorem evaluate_moves_restored (expr : Expr) (context : Context) :
    (evaluate env expr context).Moves State.Restored :=
  (State.stepRelation_enclosed.compositional env).outer_evaluate expr (fun _ _ => trivial) context

theorem evaluateSelect_moves_restored (query : Select) :
    (evaluateSelect env query).Moves State.Restored :=
  (State.stepRelation_enclosed.compositional env).outer_evaluateSelect query fun _ _ => trivial

end TableQuery
