import TableQuery.Proofs.Evaluation.Simulation

/-! # Names that a query does not use

A query looks up the names of its mentions, and numbered labels when it generates one of its own. So
it does not notice what other names mean in the frames around it: it has the same outcome, and the
counter for labels ends at the same number. -/

namespace TableQuery

/-- Stacks of frames in which names of the sort `N` mean the same. -/
structure FramesAgree (N : String → Prop) (fs gs : List Frame) : Prop where
  find? : ∀ name, N name → fs.findSome? (·.find? name) = gs.findSome? (·.find? name)
  tableName? : ∀ name, N name →
    fs.findSome? (·.tableName? name) = gs.findSome? (·.tableName? name)
  table? : ∀ name, N name → fs.findSome? (·.table? name) = gs.findSome? (·.table? name)

/-- The states differ in the frames around the innermost one only, and there in names that are not
of the sort `N`. -/
structure State.Beside (N : String → Prop) (s t : State) : Prop where
  innermost : s.scope.innermost = t.scope.innermost
  outer : FramesAgree N s.scope.outer t.scope.outer
  groupSource : s.groupSource = t.groupSource
  labelCounter : s.labelCounter = t.labelCounter

variable {N : String → Prop} {stem : String}

theorem FramesAgree.cons {fs gs : List Frame} (h : FramesAgree N fs gs) (f : Frame) :
    FramesAgree N (f :: fs) (f :: gs) where
  find? name hn := by rw [List.findSome?_cons, List.findSome?_cons, h.find? name hn]
  tableName? name hn := by rw [List.findSome?_cons, List.findSome?_cons, h.tableName? name hn]
  table? name hn := by rw [List.findSome?_cons, List.findSome?_cons, h.table? name hn]

/-- Names are found alike where a frame has one more table, which no other name stands for. -/
theorem Frame.agree_setTable {f : Frame} {z : String} (table : Table)
    (hz : ∀ name, name ≠ z → f.tableName? name ≠ some z) (gs : List Frame) :
    FramesAgree (· ≠ z) (f :: gs) (f.setTable z table :: gs) := by
  have htable : ∀ name, name ≠ z → f.table? name = (f.setTable z table).table? name :=
    fun name hn => by rw [table?_setTable, if_neg hn]
  have hlabel : ∀ name, name ≠ z → f.tableName? name = (f.setTable z table).tableName? name :=
    fun name hn => by rw [tableName?_setTable, if_neg hn]
  refine ⟨fun name hn => ?_, fun name hn => ?_, fun name hn => ?_⟩
  · have hfind : f.find? name = (f.setTable z table).find? name := by
      rw [find?, find?, ← htable name hn, ← hlabel name hn]
      congr 1
      refine Option.bind_congr fun key hk => htable key fun he => ?_
      exact hz name hn (he ▸ hk)
    rw [List.findSome?_cons, List.findSome?_cons, hfind]
  · rw [List.findSome?_cons, List.findSome?_cons, hlabel name hn]
  · rw [List.findSome?_cons, List.findSome?_cons, htable name hn]

namespace State.Beside

variable {s t s' t' : State}

theorem frames (h : s.Beside N t) : FramesAgree N s.scope.frames t.scope.frames := by
  unfold Scope.frames
  rw [h.innermost]
  exact h.outer.cons _

theorem indistinct (h : s.Beside N t) :
    Scope.Indistinct (Mention.Among N) s.scope t.scope where
  resolve ref hr := by
    refine Scope.resolve_of_lookups (by rw [h.innermost]) fun qualifier hq => ?_
    have hn : N qualifier := hr qualifier (by simp [Mention.names, hq])
    exact ⟨h.frames.tableName? qualifier hn, h.frames.table? qualifier hn⟩
  find? name label hm := h.frames.find? name (hm name (by simp [Mention.names]))
  tableName? source label hm :=
    congrArg Option.isSome (h.frames.tableName? label (hm label (by simp [Mention.names])))
  innermost label _ := by rw [h.innermost]

theorem of_restored (h : s.Beside N t) (hs : s.Restored s') (ht : t.Restored t')
    (hn : s'.labelCounter = t'.labelCounter) : s'.Beside N t' where
  innermost := by rw [hs.scope, ht.scope, h.innermost]
  outer := by rw [hs.scope, ht.scope]; exact h.outer
  groupSource := by rw [hs.groupSource, ht.groupSource, h.groupSource]
  labelCounter := hn

/-- The next free number is the same one. -/
theorem firstFree (h : s.Beside N t) (hg : ∀ n, N (FreshLabel.numbered stem n)) :
    FreshLabel.firstFree stem s.scope.allLabels s.labelCounter =
      FreshLabel.firstFree stem t.scope.allLabels t.labelCounter := by
  have hused (n : Nat) : FreshLabel.numbered stem n ∈ s.scope.allLabels ↔
      FreshLabel.numbered stem n ∈ t.scope.allLabels := by
    have hlabel := h.frames.tableName? _ (hg n)
    rw [← Scope.tableName?_isSome_iff, ← Scope.tableName?_isSome_iff, Scope.tableName?,
      Scope.tableName?, hlabel]
  rw [h.labelCounter]
  exact FreshLabel.firstFree_congr hused _

theorem bind (h : s.Beside N t) (table : Table) (label : String) {n m : Nat} (hn : n = m) :
    State.Beside N { s with scope := s.scope.bind table label, labelCounter := n }
      { t with scope := t.scope.bind table label, labelCounter := m } :=
  ⟨congrArg (·.bind table label) h.innermost, h.outer, h.groupSource, hn⟩

theorem rebind (h : s.Beside N t) (table : Table) :
    State.Beside N { s with scope := s.scope.rebind table }
      { t with scope := t.scope.rebind table } :=
  ⟨congrArg (·.rebound table) h.innermost, h.outer, h.groupSource, h.labelCounter⟩

end State.Beside

/-! ## Brackets -/

namespace Eval

variable {α : Type} {act : Eval α}

/-- In frames of their own two runs agree on the outcome and on the counter. -/
theorem beside_inChildScope (h : act.Preserves (State.Beside N)) {s t : State}
    (hs : FramesAgree N s.scope.frames t.scope.frames) (hn : s.labelCounter = t.labelCounter) :
    (act.inChildScope.runFrom s).1 = (act.inChildScope.runFrom t).1 ∧
      (act.inChildScope.runFrom s).2.labelCounter = (act.inChildScope.runFrom t).2.labelCounter :=
  have hrun := h { s with scope := s.scope.push, groupSource := none }
    { t with scope := t.scope.push, groupSource := none } ⟨rfl, hs, rfl, hn⟩
  ⟨hrun.1, hrun.2.labelCounter⟩

theorem beside_inGroupSource (h : act.Preserves (State.Beside N)) {s t : State}
    (hs : s.Beside N t) :
    (act.inGroupSource.runFrom s).1 = (act.inGroupSource.runFrom t).1 ∧
      (act.inGroupSource.runFrom s).2.labelCounter =
        (act.inGroupSource.runFrom t).2.labelCounter := by
  obtain ⟨scope, source, n⟩ := s
  obtain ⟨scope', source', n'⟩ := t
  obtain ⟨hi, ho, hg, hn⟩ := hs
  cases hg
  cases source with
  | none =>
    have hrun := h _ _ ⟨hi, ho, rfl, hn⟩
    exact ⟨hrun.1, hrun.2.labelCounter⟩
  | some source =>
    have hrun := h ⟨scope.replace source, none, n⟩ ⟨scope'.replace source, none, n'⟩
      ⟨rfl, ho, rfl, hn⟩
    exact ⟨hrun.1, hrun.2.labelCounter⟩

theorem beside_overProjection (h : act.Preserves (State.Beside N)) (projected : Table) :
    (act.overProjection projected).Preserves (State.Beside N) := by
  intro s t hs
  have hrun := h ⟨s.scope.rebind projected, some s.scope.innermost, s.labelCounter⟩
    ⟨t.scope.rebind projected, some t.scope.innermost, t.labelCounter⟩
    ⟨congrArg (·.rebound projected) hs.innermost, hs.outer, congrArg some hs.innermost,
      hs.labelCounter⟩
  exact ⟨hrun.1, hrun.2.innermost, hrun.2.outer, hs.groupSource, hrun.2.labelCounter⟩

end Eval

/-! ## Queries -/

variable {env : Environment}

theorem beside_bindTable (hg : ∀ n, N (FreshLabel.numbered env.settings.labelStem n))
    {label? : Option String} (table : Table) (hl : ∀ own, label? = some own → N own) :
    (Clause.bindTable env label? table).Preserves (State.Beside N) := by
  intro s t h
  cases label? with
  | some own =>
    have hlabel : s.scope.tableName? own = t.scope.tableName? own :=
      h.frames.tableName? own (hl own rfl)
    rw [Clause.bindTable_some, Clause.bindTable_some, hlabel]
    split
    · exact ⟨rfl, h⟩
    · exact ⟨rfl, h.bind table own h.labelCounter⟩
  | none =>
    rw [Clause.bindTable_none, Clause.bindTable_none, h.firstFree hg]
    exact ⟨rfl, h.bind table _ rfl⟩

theorem simulation_beside (hg : ∀ n, N (FreshLabel.numbered env.settings.labelStem n)) :
    Simulation env (Mention.Among N) (State.Beside N) where
  indistinct h := h.indistinct
  inGroupSource h hm s t hs :=
    have hrun := Eval.beside_inGroupSource h hs
    have hmoves := Eval.restores_inGroupSource hm
    ⟨hrun.1, hs.of_restored (hmoves s) (hmoves t) hrun.2⟩
  inChildScope h hm s t hs :=
    have hrun := Eval.beside_inChildScope h hs.frames hs.labelCounter
    have hmoves := Eval.restores_inChildScope (fun h => h) hm
    ⟨hrun.1, hs.of_restored (hmoves s) (hmoves t) hrun.2⟩
  bindTable table hf _ :=
    beside_bindTable hg table fun own ho => hf own (by simp [Mention.names, ho])
  rebind table h := h.rebind table
  overProjection projected h := Eval.beside_overProjection h projected

/-- What names mean that are neither mentioned in a query nor numbered labels is of no account to
its outcome and to the counter. -/
theorem evaluateSelect_beside {query : Select} (hm : ∀ m ∈ query.mentions, m.Among N)
    (hg : ∀ n, N (FreshLabel.numbered env.settings.labelStem n)) {s t : State}
    (h : FramesAgree N s.scope.frames t.scope.frames) (hn : s.labelCounter = t.labelCounter) :
    ((evaluateSelect env query).runFrom s).1 = ((evaluateSelect env query).runFrom t).1 ∧
      ((evaluateSelect env query).runFrom s).2.labelCounter =
        ((evaluateSelect env query).runFrom t).2.labelCounter := by
  rw [evaluateSelect_eq]
  have hinner := (simulation_beside hg).compositional.pipeline_inner query hm
  exact Eval.beside_inChildScope hinner.1 h hn

end TableQuery
