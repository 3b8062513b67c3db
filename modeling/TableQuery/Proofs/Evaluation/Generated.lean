import TableQuery.Proofs.Evaluation.Tasks

/-! # Labels that evaluations generate

The search for a label tries one number after the other, and it has ended when all labels in use are
passed over. It leaves the counter behind the number that it has come to. So whatever is put together
from such searches and from evaluations that leave the counter alone generates labels with rising
numbers, and no label twice; and every expression and every query is put together from these. -/

namespace TableQuery

/-! ## Labels with rising numbers -/

namespace FreshLabel

/-- The numbers of the labels rise from the first bound on, and the second bound is the number behind
the last of them. -/
inductive Rising (stem : String) : Nat → List String → Nat → Prop where
  | nil (n : Nat) : Rising stem n [] n
  | cons {n k m : Nat} {labels : List String} (hk : n ≤ k) (h : Rising stem (k + 1) labels m) :
    Rising stem n (numbered stem k :: labels) m

variable {stem : String} {n m k : Nat} {labels more : List String}

theorem Rising.append (h : Rising stem n labels m) (h' : Rising stem m more k) :
    Rising stem n (labels ++ more) k := by
  induction h with
  | nil n => exact h'
  | cons hk _ ih => exact .cons hk (ih h')

theorem Rising.le (h : Rising stem n labels m) : n ≤ m := by
  induction h with
  | nil n => exact Nat.le_refl n
  | cons _ _ ih => omega

/-- Up to the number behind the first label there is no other label. -/
theorem Rising.eq_nil (h : Rising stem n (numbered stem k :: labels) (k + 1)) : labels = [] := by
  generalize hl : numbered stem k :: labels = all at h
  cases h with
  | nil => cases hl
  | @cons _ i _ rest _ hrest =>
    obtain ⟨hi, rfl⟩ := List.cons.inj hl
    cases numbered_injective stem hi
    cases hrest with
    | nil => rfl
    | cons hk hrest =>
      have hle := hrest.le
      omega

theorem Rising.number (h : Rising stem n labels m) :
    ∀ label ∈ labels, ∃ k, n ≤ k ∧ label = numbered stem k := by
  induction h with
  | nil n => exact List.forall_mem_nil _
  | cons hk _ ih =>
    refine List.forall_mem_cons.mpr ⟨⟨_, hk, rfl⟩, fun label hm => ?_⟩
    obtain ⟨i, hi, rfl⟩ := ih label hm
    exact ⟨i, by omega, rfl⟩

theorem Rising.nodup (h : Rising stem n labels m) : labels.Nodup := by
  induction h with
  | nil n => exact List.nodup_nil
  | cons _ hrest ih =>
    refine List.nodup_cons.mpr ⟨fun hm => ?_, ih⟩
    obtain ⟨i, hi, he⟩ := hrest.number _ hm
    have hk := numbered_injective stem he
    omega

end FreshLabel

namespace Eval

variable {α β : Type} {settings : Settings} {s t u : State} {label : String} {turns : Nat}

/-! ## The search turn by turn -/

/-- The label with the next number, unless a frame uses it. The counter moves on either way. -/
def nextLabel? (settings : Settings) : Eval (Option String) := ofRun fun s =>
  let label := FreshLabel.numbered settings.labelStem s.labelCounter
  (.ok (if (s.scope.tableName? label).isSome then none else some label),
    { s with labelCounter := s.labelCounter + 1 })

/-- The search takes so many turns from the first state to the second. It goes on while labels are in
use, and ends with the first label that is not. -/
inductive Searches (settings : Settings) : State → Nat → String → State → Prop where
  | found {s t : State} {label : String} (h : Returns (nextLabel? settings) s (some label) t) :
    Searches settings s 1 label t
  | again {s t u : State} {label : String} {turns : Nat}
    (h : Returns (nextLabel? settings) s none t) (hrest : Searches settings t turns label u) :
    Searches settings s (turns + 1) label u

theorem nextLabel?_used
    (h : FreshLabel.numbered settings.labelStem s.labelCounter ∈ s.scope.allLabels) :
    Returns (nextLabel? settings) s none { s with labelCounter := s.labelCounter + 1 } := by
  rw [← Scope.tableName?_isSome_iff] at h
  exact Prod.ext (congrArg Except.ok (if_pos h)) rfl

theorem nextLabel?_free
    (h : FreshLabel.numbered settings.labelStem s.labelCounter ∉ s.scope.allLabels) :
    Returns (nextLabel? settings) s
      (some (FreshLabel.numbered settings.labelStem s.labelCounter))
      { s with labelCounter := s.labelCounter + 1 } := by
  rw [← Scope.tableName?_isSome_iff] at h
  exact Prod.ext (congrArg Except.ok (if_neg h)) rfl

/-- The search takes one turn for each number that it passes over, and a last one. -/
theorem searches_firstFree {d : Nat} {scope : Scope} {groupSource : Option Frame} {n : Nat}
    (h : FreshLabel.firstFree settings.labelStem scope.allLabels n = n + d) :
    Searches settings ⟨scope, groupSource, n⟩ (d + 1)
      (FreshLabel.numbered settings.labelStem (n + d)) ⟨scope, groupSource, n + d + 1⟩ := by
  induction d generalizing n with
  | zero =>
    refine .found (nextLabel?_free ?_)
    have hfree := FreshLabel.firstFree_not_mem settings.labelStem scope.allLabels n
    rw [h] at hfree
    exact hfree
  | succ d ih =>
    have hused : FreshLabel.numbered settings.labelStem n ∈ scope.allLabels :=
      FreshLabel.mem_of_lt_firstFree settings.labelStem scope.allLabels n n (Nat.le_refl n)
        (by omega)
    have hnext : FreshLabel.firstFree settings.labelStem scope.allLabels (n + 1) = n + 1 + d := by
      rw [FreshLabel.firstFree_succ hused, h]
      omega
    -- the counter has moved on, so the rest is a search of its own from the next number
    have hrest := ih hnext
    rw [show n + 1 + d = n + (d + 1) by omega] at hrest
    exact .again (nextLabel?_used hused) hrest

/-- The search has come to a label that no frame uses. Nothing but the counter has moved, and there
was a turn for each label in use at most, and the last one. -/
structure Finds (settings : Settings) (s : State) (label : String) (t : State) : Prop where
  searches : ∃ turns, Searches settings s turns label t ∧
    turns ≤ s.scope.allLabels.eraseDups.length + 1
  free : ∀ frame ∈ s.scope.frames, frame.tableName? label = none
  scope : t.scope = s.scope
  groupSource : t.groupSource = s.groupSource
  labelCounter : s.labelCounter < t.labelCounter

theorem freshLabel_finds (settings : Settings) (s : State) :
    ∃ label t, Returns (freshLabel settings) s label t ∧ Finds settings s label t := by
  obtain ⟨scope, groupSource, n⟩ := s
  obtain ⟨d, hd⟩ := Nat.exists_eq_add_of_le
    (FreshLabel.le_firstFree settings.labelStem scope.allLabels n)
  have hrun : Returns (freshLabel settings) ⟨scope, groupSource, n⟩
      (FreshLabel.numbered settings.labelStem (n + d)) ⟨scope, groupSource, n + d + 1⟩ := by
    rw [← hd]
    rfl
  have hlength := FreshLabel.firstFree_le_add_length settings.labelStem scope.allLabels n
  have hfree := FreshLabel.firstFree_not_mem settings.labelStem scope.allLabels n
  rw [hd, ← Scope.tableName?_isSome_iff, Option.not_isSome_iff_eq_none] at hfree
  refine ⟨_, _, hrun, ⟨d + 1, searches_firstFree hd, ?_⟩, List.findSome?_eq_none_iff.mp hfree, rfl,
    rfl, ?_⟩
  · show d + 1 ≤ scope.allLabels.eraseDups.length + 1
    omega
  · show n < n + d + 1
    omega

/-! ## Labels of a whole evaluation -/

/-- Started in the state, an evaluation generates these labels, one after the other. It is put
together from searches for labels and from evaluations that have no access to the counter; what
stands behind a failure generates nothing. -/
inductive Generates (settings : Settings) :
    ∀ {α : Type}, Eval α → State → List String → Prop where
  | ofExcept {α : Type} (outcome : Except QueryError α) (s : State) :
    Generates settings (ofExcept outcome) s []
  | reading {α : Type} (read : Scope → Except QueryError α) (s : State) :
    Generates settings (reading read) s []
  | onScope (change : Scope → Scope) (s : State) : Generates settings (onScope change) s []
  | freshLabel {s t : State} {label : String} (h : Returns (freshLabel settings) s label t) :
    Generates settings (freshLabel settings) s [label]
  | failed {α β : Type} {act : Eval α} {next : α → Eval β} {s t : State} {e : QueryError}
    {labels : List String} (h : Generates settings act s labels)
    (he : act.runFrom s = (.error e, t)) : Generates settings (act >>= next) s labels
  | bind {α β : Type} {act : Eval α} {next : α → Eval β} {s t : State} {a : α}
    {labels more : List String} (h : Generates settings act s labels) (ha : Returns act s a t)
    (hnext : Generates settings (next a) t more) :
    Generates settings (act >>= next) s (labels ++ more)
  | mapError {α : Type} {act : Eval α} {s : State} {labels : List String}
    (reword : QueryError → QueryError) (h : Generates settings act s labels) :
    Generates settings (act.mapError reword) s labels
  | inChildScope {α : Type} {act : Eval α} {s : State} {labels : List String}
    (h : Generates settings act s.opened labels) : Generates settings act.inChildScope s labels
  | inGroupSource {α : Type} {act : Eval α} {s : State} {labels : List String}
    (h : Generates settings act s.inSource labels) : Generates settings act.inGroupSource s labels
  | overProjection {α : Type} {act : Eval α} {s : State} {labels : List String} (projected : Table)
    (h : Generates settings act
      ⟨s.scope.rebind projected, some s.scope.innermost, s.labelCounter⟩ labels) :
    Generates settings (act.overProjection projected) s labels

theorem Returns.freshLabel (h : Returns (freshLabel settings) s label t) :
    ∃ n, s.labelCounter ≤ n ∧ label = FreshLabel.numbered settings.labelStem n ∧
      t = { s with labelCounter := n + 1 } := by
  cases h
  exact ⟨_, FreshLabel.le_firstFree _ _ _, rfl, rfl⟩

/-- The counter moves with the labels, and with them alone. -/
theorem Generates.rising {act : Eval α} {labels : List String}
    (h : act.Generates settings s labels) :
    FreshLabel.Rising settings.labelStem s.labelCounter labels (act.runFrom s).2.labelCounter := by
  induction h with
  | ofExcept | reading | onScope => exact .nil _
  | freshLabel h =>
    obtain ⟨n, hn, rfl, rfl⟩ := Returns.freshLabel h
    rw [h]
    exact .cons hn (.nil _)
  | failed _ he ih =>
    rw [he] at ih
    rw [runFrom_bind, he]
    exact ih
  | bind _ ha _ ih ihnext =>
    rw [ha] at ih
    rw [runFrom_bind_ok ha]
    exact ih.append ihnext
  | mapError _ _ ih => exact ih
  | inChildScope _ ih => exact ih
  | @inGroupSource _ act s labels _ ih =>
    -- the frame that is put in has its own labels, but the counter goes on
    obtain ⟨scope, groupSource, n⟩ := s
    cases groupSource with
    | none => exact ih
    | some source => exact ih
  | overProjection _ _ ih => exact ih

/-- Whatever state it is started in, the evaluation is put together in the way described. -/
def Assembled (settings : Settings) (act : Eval α) : Prop :=
  ∀ s, ∃ labels, act.Generates settings s labels

/-- What comes behind an evaluation adds its labels behind. -/
theorem Generates.extend {act : Eval α} {next : α → Eval β} {labels : List String}
    (h : act.Generates settings s labels) (hnext : ∀ a, (next a).Assembled settings) :
    ∃ more, (act >>= next).Generates settings s (labels ++ more) := by
  cases hr : act.runFrom s with
  | mk outcome t =>
    cases outcome with
    | error e =>
      refine ⟨[], ?_⟩
      rw [List.append_nil]
      exact .failed h hr
    | ok a =>
      obtain ⟨more, hm⟩ := hnext a t
      exact ⟨more, .bind h hr hm⟩

theorem Assembled.bind {act : Eval α} {next : α → Eval β} (h : act.Assembled settings)
    (hnext : ∀ a, (next a).Assembled settings) : (act >>= next).Assembled settings := by
  intro s
  obtain ⟨labels, hl⟩ := h s
  obtain ⟨more, hm⟩ := hl.extend hnext
  exact ⟨labels ++ more, hm⟩

theorem assembled_labelFor (env : Environment) (label : Option String) :
    (Clause.labelFor env label).Assembled env.settings := by
  unfold Clause.labelFor
  cases label with
  | some own => exact fun s => ⟨[], .reading _ s⟩
  | none => exact fun s => ⟨_, .freshLabel rfl⟩

theorem assembled_bindTable (env : Environment) (label : Option String) (table : Table) :
    (Clause.bindTable env label table).Assembled env.settings := by
  refine .bind (assembled_labelFor env label) fun label => .bind (fun s => ?_) fun _ s => ?_
  · exact ⟨[], .onScope _ s⟩
  · exact ⟨[], .ofExcept (.ok table) s⟩

end Eval

open Eval

/-- Every expression and every query is put together in the way described. -/
def assembling (env : Environment) : Compositional env fun _ => True where
  outer act := act.Assembled env.settings
  inner act := act.Assembled env.settings
  inner_of_outer h := h
  outer_ofExcept outcome s := ⟨[], .ofExcept outcome s⟩
  outer_bind := Assembled.bind
  inner_bind := Assembled.bind
  outer_mapError reword h s := (h s).imp fun _ hl => .mapError reword hl
  outer_reading read _ s := ⟨[], .reading read s⟩
  outer_inGroupSource h s := (h s.inSource).imp fun _ hl => .inGroupSource hl
  outer_inChildScope h s := (h s.opened).imp fun _ hl => .inChildScope hl
  inner_bindTable _ label table _ _ := assembled_bindTable env label table
  inner_rebind _ s := ⟨[], .onScope _ s⟩
  inner_overProjection projected h _ := (h _).imp fun _ hl => .overProjection projected hl

variable (env : Environment)

theorem evaluate_assembled (expr : Expr) (context : Context) :
    (evaluate env expr context).Assembled env.settings :=
  (assembling env).outer_evaluate expr (fun _ _ => trivial) context

theorem evaluateSelect_assembled (query : Select) :
    (evaluateSelect env query).Assembled env.settings :=
  (assembling env).outer_evaluateSelect query fun _ _ => trivial

/-! ## Where labels come from -/

variable {env} {s : State} {pos : Position} {name : String} {table : Table}

/-- A from item without a label generates one. -/
theorem evaluateTableRef_generates (h : s.scope.find? name = some table) :
    ∃ label t, Returns (freshLabel env.settings) s label t ∧
      (evaluateTableRef env false ⟨pos, .table name, none⟩).Generates env.settings s [label] := by
  have hrows : Returns (Clause.boundTable false pos name none) s table s := by
    unfold Returns Clause.boundTable
    rw [runFrom_reading, h]
    rfl
  have hbind : (Clause.bindTable env none table).Generates env.settings s ([_] ++ ([] ++ [])) :=
    .bind (.freshLabel rfl) rfl (.bind (.onScope _ _) rfl (.ofExcept (.ok table) _))
  exact ⟨_, _, rfl, .bind (.reading _ s) hrows hbind⟩

/-- The clauses behind the from item work on the table that it stands for. -/
theorem Pipeline.skipped_eq_bind (parts : Pipeline) (query : Select) (source : Eval Table) :
    parts.skipped env query source =
      source >>= fun table => parts.skipped env query (pure table) := by
  simp only [skipped, ordered, selected, filtered, joined, bind_assoc, pure_bind]

/-- A query that reads a table without a label generates one before all others, in the frame that
it opens. -/
theorem Select.generates_first {query : Select} (hstar : query.star = false)
    (hgrouped : (query.having.isSome && query.groupBy.isEmpty) = false)
    (hs : query.source = some ⟨pos, .table name, none⟩)
    (h : s.opened.scope.find? name = some table) :
    ∃ label t more, Returns (freshLabel env.settings) s.opened label t ∧
      (evaluateSelect env query).Generates env.settings s (label :: more) := by
  obtain ⟨label, t, hlabel, hsource⟩ :
      ∃ label t, Returns (freshLabel env.settings) s.opened label t ∧
        (evaluateTableRef env false ⟨pos, .table name, none⟩).Generates env.settings s.opened
          [label] := evaluateTableRef_generates h
  have hparts := (assembling env).steps.parts query
  have hfit : query.PartsFit fun _ => True := Select.partsFit fun _ _ => trivial
  rw [evaluateSelect_eq, pipeline_from hstar hs, hgrouped, Pipeline.skipped_eq_bind, bind_assoc]
  have hlater : ∀ table, ((query.parts env).skipped env query (pure table) >>=
      Clause.limit (query.limit.map (evaluate env))).Assembled env.settings := by
    intro table
    have hskipped :=
      (assembling env).inner_skipped hparts hfit ((assembling env).inner_pure table)
    have hlimit := fun table => (assembling env).outer_limit table
      ((assembling env).outer_of_option hparts.limit hfit.limit)
    exact .bind hskipped hlimit
  obtain ⟨more, hmore⟩ := hsource.extend hlater
  exact ⟨label, t, more, hlabel, .inChildScope hmore⟩

end TableQuery
