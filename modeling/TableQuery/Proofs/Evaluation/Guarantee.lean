import TableQuery.Proofs.Evaluation.Tasks
import TableQuery.Proofs.Table.Uniform
import TableQuery.Proofs.Value.Fault

/-! # Guarantees of evaluations

Where all tables in all frames are uniform, evaluations keep them so, and more can be said of the
values they yield and of the ways they fail. A guarantee says these three things at once, since the
guarantee of a sequence needs all three of its first part. -/

namespace TableQuery

/-! ## Uniform states -/

def Frame.Uniform (frame : Frame) : Prop := ∀ table ∈ frame.allTables, table.Uniform

def Scope.Uniform (scope : Scope) : Prop := ∀ frame ∈ scope.frames, frame.Uniform

/-- Every table that can be looked up is uniform. -/
structure State.Uniform (s : State) : Prop where
  scope : s.scope.Uniform
  groupSource : ∀ frame, s.groupSource = some frame → frame.Uniform

namespace Frame

variable {frame : Frame} {table : Table}

theorem uniform_empty : Frame.empty.Uniform := nofun

theorem Uniform.setLabel (h : frame.Uniform) (label tableName : String) :
    (frame.setLabel label tableName).Uniform := h

theorem Uniform.setTable (h : frame.Uniform) (name : String) (ht : table.Uniform) :
    (frame.setTable name table).Uniform := by
  intro other ho
  obtain ⟨entry, he, rfl⟩ := List.mem_map.mp ho
  rcases List.mem_append.mp he with he | he
  · exact h _ (List.mem_map.mpr ⟨entry, (List.mem_filter.mp he).1, rfl⟩)
  · cases List.mem_singleton.mp he
    exact ht

theorem uniform_rebound (frame : Frame) (ht : table.Uniform) : (frame.rebound table).Uniform := by
  intro other ho
  rw [allTables_rebound] at ho
  cases List.mem_singleton.mp ho
  exact ht

theorem Uniform.table? (h : frame.Uniform) {name : String} (ht : frame.table? name = some table) :
    table.Uniform := by
  obtain ⟨_, _, hsplit, _⟩ := List.lookup_eq_some_iff.mp ht
  have hm : (name, table) ∈ frame.tables := by simp [hsplit]
  exact h table (List.mem_map.mpr ⟨_, hm, rfl⟩)

theorem Uniform.find? (h : frame.Uniform) {name : String} (hf : frame.find? name = some table) :
    table.Uniform := by
  rcases Option.or_eq_some_iff.mp hf with ht | ⟨_, hb⟩
  · exact h.table? ht
  · obtain ⟨key, _, ht⟩ := Option.bind_eq_some_iff.mp hb
    exact h.table? ht

end Frame

namespace Scope

variable {scope : Scope}

theorem Uniform.innermost (h : scope.Uniform) : scope.innermost.Uniform :=
  h _ List.mem_cons_self

theorem Uniform.replace (h : scope.Uniform) {frame : Frame} (hf : frame.Uniform) :
    (scope.replace frame).Uniform :=
  List.forall_mem_cons.mpr ⟨hf, (List.forall_mem_cons.mp h).2⟩

theorem Uniform.rebind (h : scope.Uniform) {table : Table} (ht : table.Uniform) :
    (scope.rebind table).Uniform := h.replace (scope.innermost.uniform_rebound ht)

theorem Uniform.push (h : scope.Uniform) : scope.push.Uniform :=
  List.forall_mem_cons.mpr ⟨Frame.uniform_empty, h⟩

theorem Uniform.pop (h : scope.Uniform) : scope.pop.Uniform := by
  obtain ⟨innermost, outer⟩ := scope
  cases outer with
  | nil => exact h
  | cons frame rest => exact (List.forall_mem_cons.mp h).2

theorem Uniform.find? (h : scope.Uniform) {name : String} {table : Table}
    (hf : scope.find? name = some table) : table.Uniform := by
  obtain ⟨frame, hm, ht⟩ := List.exists_of_findSome?_eq_some hf
  exact (h frame hm).find? ht

end Scope

theorem State.Uniform.opened {s : State} (h : s.Uniform) : s.opened.Uniform :=
  ⟨h.scope.push, nofun⟩

theorem State.Uniform.inSource {s : State} (h : s.Uniform) : s.inSource.Uniform := by
  obtain ⟨scope, groupSource, n⟩ := s
  cases groupSource with
  | none => exact h
  | some source => exact ⟨h.scope.replace (h.groupSource source rfl), nofun⟩

theorem State.Uniform.overProjection {s : State} (h : s.Uniform) {projected : Table}
    (hp : projected.Uniform) :
    State.Uniform ⟨s.scope.rebind projected, some s.scope.innermost, s.labelCounter⟩ := by
  refine ⟨h.scope.rebind hp, fun frame hf => ?_⟩
  cases hf
  exact h.scope.innermost

/-- The scope and the frame behind `having` are all that counts. -/
theorem State.Uniform.of_restored {s t : State} (h : s.Uniform) (hr : s.Restored t) :
    t.Uniform where
  scope := by
    rw [hr.scope]
    exact h.scope
  groupSource frame hf := by
    rw [hr.groupSource] at hf
    exact h.groupSource frame hf

/-! ## Guarantees -/

namespace Eval

variable {α β : Type} {tidy : Prop}

/-- From a state with uniform tables the evaluation goes to one, and any value it yields has the
property. If the trees are tidy, it fails without an internal fault if at all. -/
structure Ensures (tidy : Prop) (act : Eval α) (Q : α → Prop) : Prop where
  uniform : ∀ s, s.Uniform → (act.runFrom s).2.Uniform
  value : ∀ s a t, s.Uniform → Returns act s a t → Q a
  clean : tidy → ∀ s, s.Uniform → Clean (act.runFrom s).1

namespace Ensures

variable {act : Eval α} {Q R : α → Prop}

theorem after (h : act.Ensures tidy Q) {s t : State} {a : α} (hs : s.Uniform)
    (hr : Returns act s a t) : t.Uniform := by
  have ht := h.uniform s hs
  rw [hr] at ht
  exact ht

/-- What is known of the values an evaluation returns can be added to its guarantee. -/
theorem refine (h : act.Ensures tidy Q)
    (hr : ∀ s a t, s.Uniform → Returns act s a t → Q a → R a) : act.Ensures tidy R where
  uniform := h.uniform
  value s a t hs ha := hr s a t hs ha (h.value s a t hs ha)
  clean := h.clean

theorem mono (h : act.Ensures tidy Q) (hr : ∀ a, Q a → R a) : act.Ensures tidy R :=
  h.refine fun _ a _ _ _ hq => hr a hq

theorem bind {next : α → Eval β} {R : β → Prop} (ha : act.Ensures tidy Q)
    (hn : ∀ a, Q a → (next a).Ensures tidy R) : (act >>= next).Ensures tidy R where
  uniform s hs := by
    have hu := ha.uniform s hs
    rw [runFrom_bind]
    cases hr : act.runFrom s with
    | mk outcome t =>
      rw [hr] at hu
      cases outcome with
      | error e => exact hu
      | ok a => exact (hn a (ha.value s a t hs hr)).uniform t hu
  value s b t hs h := by
    obtain ⟨a, u, hu, h⟩ := Returns.bind h
    exact (hn a (ha.value s a u hs hu)).value u b t (ha.after hs hu) h
  clean ht s hs := by
    have hc := ha.clean ht s hs
    rw [runFrom_bind]
    cases hr : act.runFrom s with
    | mk outcome u =>
      rw [hr] at hc
      cases outcome with
      | error e => exact clean_error (hc e rfl)
      | ok a => exact (hn a (ha.value s a u hs hr)).clean ht u (ha.after hs hr)

theorem ofExcept {outcome : Except QueryError α} (hv : ∀ a, outcome = .ok a → Q a)
    (hc : tidy → Clean outcome) : (ofExcept outcome).Ensures tidy Q where
  uniform _ hs := hs
  value _ a _ _ h := hv a (Returns.ofExcept h).1
  clean ht _ _ := hc ht

theorem pure {a : α} (h : Q a) : (pure a : Eval α).Ensures tidy Q where
  uniform _ hs := hs
  value _ b _ _ hr := by
    obtain ⟨rfl, -⟩ := Returns.pure hr
    exact h
  clean _ _ _ := clean_ok a

theorem throw {e : QueryError} (h : tidy → ¬e.Internal) :
    (throw e : Eval α).Ensures tidy Q where
  uniform _ hs := hs
  value _ _ _ _ hr := (Returns.throw hr).elim
  clean ht _ _ := clean_error (h ht)

theorem reading {read : Scope → Except QueryError α}
    (hv : ∀ scope, scope.Uniform → ∀ a, read scope = .ok a → Q a)
    (hc : tidy → ∀ scope, scope.Uniform → Clean (read scope)) :
    (reading read).Ensures tidy Q where
  uniform _ hs := hs
  value s a _ hs h := hv s.scope hs.scope a (Returns.reading h).1
  clean ht s hs := hc ht s.scope hs.scope

theorem onScope {change : Scope → Scope} (h : ∀ scope, scope.Uniform → (change scope).Uniform) :
    (onScope change).Ensures tidy fun _ => True where
  uniform s hs := ⟨h s.scope hs.scope, hs.groupSource⟩
  value _ _ _ _ _ := trivial
  clean _ _ _ := clean_ok ()

theorem freshLabel (settings : Settings) :
    (freshLabel settings).Ensures tidy fun _ => True where
  uniform _ hs := ⟨hs.scope, hs.groupSource⟩
  value _ _ _ _ _ := trivial
  clean _ _ _ := clean_ok _

theorem mapError {reword : QueryError → QueryError} (h : act.Ensures tidy Q)
    (hc : ∀ e, ¬e.Internal → ¬(reword e).Internal) : (act.mapError reword).Ensures tidy Q where
  uniform := h.uniform
  value s a t hs hr := by
    unfold Returns at hr
    rw [runFrom_mapError] at hr
    cases hact : act.runFrom s with
    | mk outcome u =>
      rw [hact] at hr
      cases outcome with
      | error e => cases hr
      | ok b =>
        cases hr
        exact h.value s a _ hs hact
  clean ht s hs := by
    have hclean := h.clean ht s hs
    rw [runFrom_mapError]
    cases hact : (act.runFrom s).1 with
    | error e => exact clean_error (hc e (hclean e hact))
    | ok a => exact clean_ok a

/-! ## Brackets -/

theorem inChildScope (h : act.Ensures tidy Q) : act.inChildScope.Ensures tidy Q where
  uniform _ hs := ⟨(h.uniform _ hs.opened).scope.pop, hs.groupSource⟩
  value _ a _ hs hr := h.value _ a _ hs.opened (Prod.ext (Prod.mk.inj hr).1 rfl)
  clean ht _ hs := h.clean ht _ hs.opened

theorem inGroupSource (h : act.Ensures tidy Q) : act.inGroupSource.Ensures tidy Q where
  uniform s hs := by
    have ha := h.uniform _ hs.inSource
    obtain ⟨scope, groupSource, n⟩ := s
    cases groupSource with
    | none => exact ha
    | some source =>
      refine ⟨ha.scope.replace hs.scope.innermost, fun frame hf => ?_⟩
      cases hf
      exact ha.scope.innermost
  value s a t hs hr := by
    have hv := fun u => h.value _ a u hs.inSource
    obtain ⟨scope, groupSource, n⟩ := s
    cases groupSource with
    | none => exact hv t hr
    | some source => exact hv _ (Prod.ext (Prod.mk.inj hr).1 rfl)
  clean ht s hs := by
    have hc := h.clean ht _ hs.inSource
    obtain ⟨scope, groupSource, n⟩ := s
    cases groupSource with
    | none => exact hc
    | some source => exact hc

theorem overProjection (h : act.Ensures tidy Q) {projected : Table} (hp : projected.Uniform) :
    (act.overProjection projected).Ensures tidy Q where
  uniform _ hs := ⟨(h.uniform _ (hs.overProjection hp)).scope, hs.groupSource⟩
  value _ a _ hs hr := h.value _ a _ (hs.overProjection hp) (Prod.ext (Prod.mk.inj hr).1 rfl)
  clean ht _ hs := h.clean ht _ (hs.overProjection hp)

/-! ## Loops -/

theorem mapM {act : α → Eval β} {Q : β → Prop} : ∀ {as : List α},
    (∀ a ∈ as, (act a).Ensures tidy Q) →
      (as.mapM act).Ensures tidy fun bs => bs.length = as.length ∧ ∀ b ∈ bs, Q b
  | [], _ => by
    rw [List.mapM_nil]
    exact pure ⟨rfl, nofun⟩
  | a :: rest, h => by
    have hrest := mapM fun b hb => h b (List.mem_cons_of_mem _ hb)
    rw [List.mapM_cons]
    refine (h a List.mem_cons_self).bind fun b hb => hrest.bind fun bs hbs => pure ⟨?_, ?_⟩
    · rw [List.length_cons, List.length_cons, hbs.1]
    · exact List.forall_mem_cons.mpr ⟨hb, hbs.2⟩

theorem length_mapM {act : α → Eval β} {as : List α}
    (h : ∀ a ∈ as, (act a).Ensures tidy fun _ => True) :
    (as.mapM act).Ensures tidy fun bs => bs.length = as.length :=
  (mapM h).mono fun _ hbs => hbs.1

theorem keepM {condition : α → Eval Bool} : ∀ {as : List α},
    (∀ a ∈ as, (condition a).Ensures tidy fun _ => True) →
      (keepM condition as).Ensures tidy fun kept => ∀ a ∈ kept, a ∈ as := by
  intro as h
  suffices hk : (TableQuery.keepM condition as).Ensures tidy fun _ => True from
    hk.refine fun _ _ _ _ hr _ => Returns.keepM hr
  induction as with
  | nil => exact pure trivial
  | cons a rest ih =>
    have hrest := ih fun b hb => h b (List.mem_cons_of_mem _ hb)
    exact (h a List.mem_cons_self).bind fun _ _ => hrest.bind fun _ _ => pure trivial

/-- What holds of a loop may depend on the elements that it has been through. -/
theorem foldlM {step : β → α → Eval β} {I : List α → β → Prop} : ∀ {as before : List α} {b : β},
    (∀ before, ∀ a ∈ as, ∀ b, I before b → (step b a).Ensures tidy (I (before ++ [a]))) →
      I before b → (as.foldlM step b).Ensures tidy (I (before ++ as))
  | [], before, b, _, hb => by
    rw [List.append_nil]
    exact pure hb
  | a :: rest, before, b, h, hb => by
    have hrest := fun before c hc => h before c (List.mem_cons_of_mem _ hc)
    rw [List.foldlM_cons, List.append_cons]
    exact (h before a List.mem_cons_self b hb).bind fun c hc => foldlM hrest hc

end Ensures

end Eval

end TableQuery
