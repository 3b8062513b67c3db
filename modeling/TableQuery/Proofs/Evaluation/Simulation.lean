import TableQuery.Proofs.Evaluation.Restore

/-! # Two runs of one evaluation

A relation of states is a simulation if evaluations started in related states have one outcome,
errors included, and end in related states. It is enough to look at the few evaluations that touch
the state; all others are made of these, so that every query then has one outcome from related
states. -/

namespace TableQuery

/-- The meaning of a reference depends on the tables of the innermost frame and on what stands under
its qualifier. -/
theorem Scope.resolve_of_lookups {scope scope' : Scope} {ref : ColumnRef}
    (htables : scope.innermost.tables = scope'.innermost.tables)
    (hqualifier : ∀ qualifier, ref.table = some qualifier →
      scope.tableName? qualifier = scope'.tableName? qualifier ∧
        scope.table? qualifier = scope'.table? qualifier) :
    scope.resolve ref = scope'.resolve ref := by
  have htable : scope.tableOf ref = scope'.tableOf ref := by
    unfold tableOf
    cases hq : ref.table with
    | none =>
      show scope.owner ref = scope'.owner ref
      unfold owner Frame.allTables
      rw [htables]
    | some qualifier =>
      obtain ⟨hname, htable⟩ := hqualifier qualifier hq
      show scope.qualified qualifier = scope'.qualified qualifier
      unfold qualified
      rw [hname, htable]
  funext row
  unfold resolve
  rw [htable]

namespace Eval

variable {α β : Type} {S : State → State → Prop}

/-- From related states an evaluation has one outcome and leaves related states. -/
def Preserves (S : State → State → Prop) (act : Eval α) : Prop :=
  ∀ s t, S s t → (act.runFrom s).1 = (act.runFrom t).1 ∧ S (act.runFrom s).2 (act.runFrom t).2

theorem Preserves.bind {act : Eval α} {next : α → Eval β} (ha : act.Preserves S)
    (hn : ∀ a, (next a).Preserves S) : (act >>= next).Preserves S := by
  intro s t h
  obtain ⟨ho, hs⟩ := ha s t h
  rw [runFrom_bind, runFrom_bind]
  cases hra : act.runFrom s with
  | mk outcome s' =>
    cases hrb : act.runFrom t with
    | mk outcome' t' =>
      rw [hra, hrb] at ho hs
      cases ho
      cases outcome with
      | error e => exact ⟨rfl, hs⟩
      | ok a => exact hn a s' t' hs

end Eval

/-- A relation of states that the evaluations with an effect on the state preserve. -/
structure Simulation (env : Environment) (fits : Mention → Prop) (S : State → State → Prop) :
    Prop where
  indistinct : ∀ {s t : State}, S s t → Scope.Indistinct fits s.scope t.scope
  inGroupSource : ∀ {α : Type} {act : Eval α}, act.Preserves S → act.Moves State.Restored →
    act.inGroupSource.Preserves S
  inChildScope : ∀ {α : Type} {act : Eval α}, act.Preserves S → act.Moves State.Enclosed →
    act.inChildScope.Preserves S
  bindTable : ∀ {source label : Option String} (table : Table), fits (.item source label) →
    (source = none → label ≠ none) → (Clause.bindTable env label table).Preserves S
  rebind : ∀ {s t : State} (table : Table), S s t →
    S { s with scope := s.scope.rebind table } { t with scope := t.scope.rebind table }
  overProjection : ∀ {α : Type} {act : Eval α} (projected : Table), act.Preserves S →
    (act.overProjection projected).Preserves S

namespace Simulation

variable {env : Environment} {fits : Mention → Prop} {S : State → State → Prop}

/-- All evaluations preserve a simulation. -/
def compositional (h : Simulation env fits S) : Compositional env fits where
  outer act := act.Preserves S ∧ act.Moves State.Restored
  inner act := act.Preserves S ∧ act.Moves State.Enclosed
  inner_of_outer ha := ⟨ha.1, fun s => (ha.2 s).enclosed⟩
  outer_ofExcept _ := ⟨fun _ _ hs => ⟨rfl, hs⟩, fun s => .refl s⟩
  outer_bind ha hn :=
    ⟨ha.1.bind fun a => (hn a).1,
      .bind (R := State.Restored) (fun _ _ _ hs ht => hs.trans ht) ha.2 fun a => (hn a).2⟩
  inner_bind ha hn :=
    ⟨ha.1.bind fun a => (hn a).1,
      .bind (R := State.Enclosed) (fun _ _ _ hs ht => hs.trans ht) ha.2 fun a => (hn a).2⟩
  outer_mapError reword ha :=
    ⟨fun s t hs => ⟨congrArg (Except.mapError reword) (ha.1 s t hs).1, (ha.1 s t hs).2⟩, ha.2⟩
  outer_reading _ hr := ⟨fun _ _ hs => ⟨hr _ _ (h.indistinct hs), hs⟩, fun s => .refl s⟩
  outer_inGroupSource ha := ⟨h.inGroupSource ha.1 ha.2, Eval.restores_inGroupSource ha.2⟩
  outer_inChildScope ha :=
    ⟨h.inChildScope ha.1 ha.2, Eval.restores_inChildScope (fun hs => hs) ha.2⟩
  inner_bindTable _ label table hf hs :=
    ⟨h.bindTable table hf hs, State.stepRelation_enclosed.bindTable env label table⟩
  inner_rebind table :=
    ⟨fun _ _ hs => ⟨rfl, h.rebind table hs⟩,
      fun s => State.stepRelation_enclosed.rebound s table⟩
  inner_overProjection projected ha :=
    ⟨h.overProjection projected ha.1,
      Eval.moves_overProjection State.stepRelation_enclosed projected ha.2⟩

end Simulation

end TableQuery
