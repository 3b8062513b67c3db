import TableQuery.Proofs.Evaluation.Tasks

/-! # Evaluations that do the same

Two evaluations do the same from a state if all their parts do the same from the states that they
are reached in. Loops and brackets are made of such parts. -/

namespace TableQuery

open Eval

/-! ## The frame of grouped rows -/

theorem State.Restored.inSource {t u : State} (h : t.Restored u) :
    t.inSource.Restored u.inSource := by
  unfold State.inSource
  rw [h.groupSource]
  cases t.groupSource with
  | none => exact h
  | some source => exact ⟨by rw [h.scope], rfl, h.labelCounter⟩

theorem State.Restored.of_inSource {t v : State} (h : t.inSource.Restored v) :
    ∃ u, t.Restored u ∧ v = u.inSource := by
  obtain ⟨scope, source?, n⟩ := t
  obtain ⟨scope', source', m⟩ := v
  cases source? with
  | none =>
    have hnone : source' = none := h.groupSource
    subst hnone
    exact ⟨_, h, rfl⟩
  | some source =>
    have hscope : scope' = scope.replace source := h.scope
    have hnone : source' = none := h.groupSource
    subst hscope hnone
    exact ⟨⟨scope, some source, m⟩, ⟨rfl, rfl, h.labelCounter⟩, rfl⟩

/-! ## Brackets -/

theorem Eval.runFrom_inGroupSource_congr {α : Type} {act act' : Eval α} {s : State}
    (h : act'.runFrom s.inSource = act.runFrom s.inSource) :
    act'.inGroupSource.runFrom s = act.inGroupSource.runFrom s := by
  obtain ⟨scope, source?, n⟩ := s
  cases source? with
  | none => exact h
  | some source =>
    exact congrArg (fun run : Except QueryError α × State =>
      (run.1, { run.2 with
        scope := run.2.scope.replace scope.innermost
        groupSource := some run.2.scope.innermost })) h

theorem Eval.runFrom_overProjection_congr {α : Type} {act act' : Eval α} {projected : Table}
    {s : State}
    (h : act'.runFrom (s.overProjection projected) = act.runFrom (s.overProjection projected)) :
    (act'.overProjection projected).runFrom s = (act.overProjection projected).runFrom s :=
  congrArg (fun run : Except QueryError α × State =>
    (run.1, { run.2 with groupSource := s.groupSource })) h

theorem Eval.runFrom_inChildScope_congr {α : Type} {act act' : Eval α} {s : State}
    (h : act'.runFrom s.opened = act.runFrom s.opened) :
    act'.inChildScope.runFrom s = act.inChildScope.runFrom s :=
  congrArg (fun run : Except QueryError α × State =>
    (run.1, { run.2 with scope := run.2.scope.pop, groupSource := s.groupSource })) h

/-! ## Evaluations with one outcome -/

namespace Eval

variable {α β : Type} {s : State}

theorem runFrom_bind_congr {act act' : Eval α} {next next' : α → Eval β}
    (ha : act'.runFrom s = act.runFrom s)
    (hn : ∀ a t, Returns act s a t → (next' a).runFrom t = (next a).runFrom t) :
    (act' >>= next').runFrom s = (act >>= next).runFrom s := by
  rw [runFrom_bind, runFrom_bind, ha]
  cases h : act.runFrom s with
  | mk outcome t =>
    cases outcome with
    | error e => rfl
    | ok a => exact hn a t h

/-- Wherever only the counter for labels has moved, two evaluations do the same. The second one
restores the state. -/
structure Same (s : State) (act' act : Eval α) : Prop where
  run : ∀ t, s.Restored t → act'.runFrom t = act.runFrom t
  restores : act.Moves State.Restored

namespace Same

theorem refl {act : Eval α} (h : act.Moves State.Restored) : Same s act act := ⟨fun _ _ => rfl, h⟩

theorem ofExcept (outcome : Except QueryError α) : Same s (ofExcept outcome) (ofExcept outcome) :=
  refl fun t => .refl t

theorem pure (a : α) : Same s (Pure.pure a) (Pure.pure a : Eval α) := ofExcept (.ok a)

theorem throw (e : QueryError) : Same s (throw e) (throw e : Eval α) := ofExcept (.error e)

theorem bind {act act' : Eval α} {next next' : α → Eval β} (ha : Same s act' act)
    (hn : ∀ a, Same s (next' a) (next a)) : Same s (act' >>= next') (act >>= next) where
  run t ht := runFrom_bind_congr (ha.run t ht) fun a u hr =>
    (hn a).run u (ht.trans (Moves.returns ha.restores hr))
  restores := .bind (R := State.Restored) (fun _ _ _ h h' => h.trans h') ha.restores
    fun a => (hn a).restores

theorem mapError {act act' : Eval α} (reword : QueryError → QueryError) (h : Same s act' act) :
    Same s (act'.mapError reword) (act.mapError reword) where
  run t ht := by rw [runFrom_mapError, runFrom_mapError, h.run t ht]
  restores := h.restores

theorem forall₂_mapM {γ : Type} {act : α → Eval β} {act' : γ → Eval β} {as : List α}
    {cs : List γ} (h : List.Forall₂ (fun a c => Same s (act' c) (act a)) as cs) :
    Same s (cs.mapM act') (as.mapM act) := by
  induction h with
  | nil =>
    rw [List.mapM_nil, List.mapM_nil]
    exact pure []
  | cons hac _ ih =>
    rw [List.mapM_cons, List.mapM_cons]
    exact hac.bind fun b => ih.bind fun bs => pure _

theorem mapM {act act' : α → Eval β} {as : List α} (h : ∀ a ∈ as, Same s (act' a) (act a)) :
    Same s (as.mapM act') (as.mapM act) := forall₂_mapM (List.forall₂_same.mpr h)

theorem keepM {condition condition' : α → Eval Bool} :
    ∀ {as : List α}, (∀ a ∈ as, Same s (condition' a) (condition a)) →
      Same s (keepM condition' as) (keepM condition as)
  | [], _ => pure []
  | a :: _, h =>
    (h a List.mem_cons_self).bind fun _ =>
      (keepM fun b hb => h b (List.mem_cons_of_mem _ hb)).bind fun _ => pure _

end Same

end Eval

/-! ## Having, groups and sorting -/

/-- `having` asks for its condition over the projection, on the rows there with their groups, and
nowhere else. So conditions that do the same there are the same to it. -/
theorem Clause.having_congr {condition condition' : Meaning} {groups : List Group}
    {projected : Table} {s : State}
    (h : ∀ row group, (row, group) ∈ projected.rows.zip groups →
      Same (s.overProjection projected) (condition' (.ofGroup row group.rows))
        (condition (.ofGroup row group.rows))) :
    (Clause.having (some condition') groups projected).runFrom s =
      (Clause.having (some condition) groups projected).runFrom s := by
  refine runFrom_bind_congr (runFrom_overProjection_congr ?_) fun _ _ _ => rfl
  refine (Same.keepM fun pair hp => ?_).run _ (.refl _)
  exact (h pair.1 pair.2 hp).bind fun v => .ofExcept v.holds

theorem groupRows_congr_of_mem {name : String}
    {key key' : Row → Except QueryError (List (Column × Value))} {rows : List Row}
    (h : ∀ row ∈ rows, key' row = key row) : groupRows name key' rows = groupRows name key rows :=
  foldlM_congr_of_mem fun groups row hr => by rw [h row hr]

theorem Table.sort_congr_of_mem {table : Table} {directions : List Direction}
    {key key' : Row → Except QueryError (List Value)}
    (h : ∀ row ∈ table.rows, key' row = key row) :
    table.sort directions key' = table.sort directions key := by
  unfold sort
  rw [mapM_congr_of_mem h]

end TableQuery
