import TableQuery.Evaluation.State

/-! # Runs of evaluations

What an evaluation made of parts does to outcome and state. Later modules run evaluations through
these equations, or take a successful run apart with `Returns`. -/

namespace TableQuery.Eval

variable {α β : Type}

@[simp] theorem runFrom_reading (read : Scope → Except QueryError α) (s : State) :
    (reading read).runFrom s = (read s.scope, s) := rfl

@[simp] theorem runFrom_mapError (reword : QueryError → QueryError) (act : Eval α) (s : State) :
    (act.mapError reword).runFrom s = ((act.runFrom s).1.mapError reword, (act.runFrom s).2) := rfl

theorem runFrom_bind (act : Eval α) (next : α → Eval β) (s : State) :
    (act >>= next).runFrom s =
      match act.runFrom s with
      | (.ok a, t) => (next a).runFrom t
      | (.error e, t) => (.error e, t) := by
  cases h : act.runFrom s with
  | mk outcome t =>
    have h' : act s = (outcome, t) := h
    simp only [runFrom, bind, ExceptT.bind, ExceptT.mk, StateT.bind, h']
    cases outcome <;> rfl

theorem runFrom_bind_ok {act : Eval α} {next : α → Eval β} {s t : State} {a : α}
    (h : act.runFrom s = (.ok a, t)) : (act >>= next).runFrom s = (next a).runFrom t := by
  rw [runFrom_bind, h]

/-! ## Successful runs -/

/-- From the first state the evaluation yields the value and leaves the second state. -/
def Returns (act : Eval α) (s : State) (a : α) (t : State) : Prop := act.runFrom s = (.ok a, t)

theorem Returns.bind {act : Eval α} {next : α → Eval β} {s t : State} {b : β}
    (h : Returns (act >>= next) s b t) :
    ∃ a u, Returns act s a u ∧ Returns (next a) u b t := by
  unfold Returns at h
  rw [runFrom_bind] at h
  split at h
  · exact ⟨_, _, ‹_›, h⟩
  · cases h

theorem Returns.pure {a b : α} {s t : State} (h : Returns (pure a) s b t) : b = a ∧ t = s := by
  cases h; exact ⟨rfl, rfl⟩

theorem Returns.throw {e : QueryError} {a : α} {s t : State} (h : Returns (throw e) s a t) :
    False := by
  cases h

theorem Returns.ofExcept {outcome : Except QueryError α} {a : α} {s t : State}
    (h : Returns (ofExcept outcome) s a t) : outcome = .ok a ∧ t = s := by
  cases h; exact ⟨rfl, rfl⟩

theorem Returns.reading {read : Scope → Except QueryError α} {a : α} {s t : State}
    (h : Returns (reading read) s a t) : read s.scope = .ok a ∧ t = s := by
  obtain ⟨ha, ht⟩ := Prod.mk.inj h
  exact ⟨ha, ht.symm⟩

theorem Returns.onScope {change : Scope → Scope} {u : Unit} {s t : State}
    (h : Returns (onScope change) s u t) : t = { s with scope := change s.scope } :=
  (Prod.mk.inj h).2.symm

end TableQuery.Eval
