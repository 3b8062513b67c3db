import TableQuery.Proofs.Evaluation.Operands
import TableQuery.Proofs.Evaluation.Values

/-! # Two evaluations side by side

Two evaluations go together if, started in related states, they both fail or else both yield related
values and leave related states. What message a failure carries does not matter. Loops and
expressions go together with each other as soon as their parts do, whatever the relation of states
is and however the contexts differ that the two are evaluated in. -/

namespace TableQuery

variable {α β γ δ : Type}

/-! ## Computations that may fail -/

/-- Both outcomes are failures, or both are values that are related. -/
inductive Both (P : α → β → Prop) : Except QueryError α → Except QueryError β → Prop where
  | error {e e' : QueryError} : Both P (.error e) (.error e')
  | ok {a : α} {b : β} (h : P a b) : Both P (.ok a) (.ok b)

namespace Both

variable {P : α → β → Prop} {Q : γ → δ → Prop}

theorem refl (outcome : Except QueryError α) : Both Eq outcome outcome := by
  cases outcome with
  | error e => exact .error
  | ok a => exact .ok rfl

theorem bind {x : Except QueryError α} {y : Except QueryError β} {f : α → Except QueryError γ}
    {g : β → Except QueryError δ} (h : Both P x y) (hn : ∀ a b, P a b → Both Q (f a) (g b)) :
    Both Q (x >>= f) (y >>= g) := by
  cases h with
  | error => exact .error
  | ok hab => exact hn _ _ hab

theorem map {x : Except QueryError α} {y : Except QueryError β} {f : α → γ} {g : β → δ}
    (h : Both P x y) (hn : ∀ a b, P a b → Q (f a) (g b)) : Both Q (f <$> x) (g <$> y) := by
  cases h with
  | error => exact .error
  | ok hab => exact .ok (hn _ _ hab)

theorem mono {P' : α → β → Prop} {x : Except QueryError α} {y : Except QueryError β}
    (h : Both P x y) (hp : ∀ a b, P a b → P' a b) : Both P' x y := by
  cases h with
  | error => exact .error
  | ok hab => exact .ok (hp _ _ hab)

end Both

/-! ## Loops -/

/-- How a relation of values becomes one of computations. -/
structure Relator (m : Type → Type) [Monad m] where
  Holds : ∀ {α β : Type}, (α → β → Prop) → m α → m β → Prop
  pure : ∀ {α β : Type} {P : α → β → Prop} {a : α} {b : β}, P a b →
    Holds P (Pure.pure a) (Pure.pure b)
  bind : ∀ {α β γ δ : Type} {P : α → β → Prop} {Q : γ → δ → Prop} {x : m α} {y : m β}
    {f : α → m γ} {g : β → m δ}, Holds P x y → (∀ a b, P a b → Holds Q (f a) (g b)) →
    Holds Q (x >>= f) (y >>= g)

namespace Relator

variable {m : Type → Type} [Monad m] (L : Relator m) {P : α → β → Prop} {Q : γ → δ → Prop}
  {as : List α} {bs : List β}

theorem mapM [LawfulMonad m] {f : α → m γ} {g : β → m δ} (h : List.Forall₂ P as bs)
    (hs : ∀ a b, P a b → L.Holds Q (f a) (g b)) :
    L.Holds (List.Forall₂ Q) (as.mapM f) (bs.mapM g) := by
  induction h with
  | nil =>
    rw [List.mapM_nil, List.mapM_nil]
    exact L.pure .nil
  | cons hab _ ih =>
    rw [List.mapM_cons, List.mapM_cons]
    exact L.bind (hs _ _ hab) fun c d hcd => L.bind ih fun cs ds hall => L.pure (.cons hcd hall)

theorem foldlM {f : γ → α → m γ} {g : δ → β → m δ} (h : List.Forall₂ P as bs)
    (hs : ∀ c d a b, Q c d → P a b → L.Holds Q (f c a) (g d b)) :
    ∀ {c : γ} {d : δ}, Q c d → L.Holds Q (as.foldlM f c) (bs.foldlM g d) := by
  induction h with
  | nil => exact fun hcd => L.pure hcd
  | cons hab _ ih =>
    intro c d hcd
    rw [List.foldlM_cons, List.foldlM_cons]
    exact L.bind (hs _ _ _ _ hcd hab) fun _ _ hnext => ih hnext

theorem keepM {condition : α → m Bool} {condition' : β → m Bool} (h : List.Forall₂ P as bs)
    (hs : ∀ a b, P a b → L.Holds Eq (condition a) (condition' b)) :
    L.Holds (List.Forall₂ P) (keepM condition as) (TableQuery.keepM condition' bs) := by
  induction h with
  | nil => exact L.pure .nil
  | cons hab _ ih =>
    refine L.bind (hs _ _ hab) fun keep keep' hkeep => L.bind ih fun cs ds hall => L.pure ?_
    subst hkeep
    split
    · exact .cons hab hall
    · exact hall

end Relator

/-- Computations that may fail, loops of them included. -/
def Both.relator : Relator (Except QueryError) := ⟨Both, .ok, .bind⟩

/-! ## Evaluations -/

namespace Eval

variable {S T : State → State → Prop} {P : α → β → Prop} {Q : γ → δ → Prop}

/-- What two evaluations that go together come to. -/
inductive Outcomes (S : State → State → Prop) (P : α → β → Prop) :
    Except QueryError α × State → Except QueryError β × State → Prop where
  | fail {e e' : QueryError} {s t : State} : Outcomes S P (.error e, s) (.error e', t)
  | yield {a : α} {b : β} {s t : State} (hp : P a b) (hs : S s t) :
    Outcomes S P (.ok a, s) (.ok b, t)

theorem Outcomes.refl (run : Except QueryError α × State) : Outcomes Eq Eq run run := by
  obtain ⟨outcome, t⟩ := run
  cases outcome with
  | error e => exact .fail
  | ok a => exact .yield rfl rfl

theorem Outcomes.both {run : Except QueryError α × State} {run' : Except QueryError β × State}
    (h : Outcomes S P run run') : Both P run.1 run'.1 := by
  cases h with
  | fail => exact .error
  | yield hp _ => exact .ok hp

theorem Outcomes.returned {act : Eval α} {act' : Eval β} {s t u v : State} {a : α} {b : β}
    (h : Outcomes S P (act.runFrom s) (act'.runFrom t)) (hr : Returns act s a u)
    (hr' : Returns act' t b v) : P a b := by
  rw [hr, hr'] at h
  cases h
  assumption

theorem Outcomes.bind {act : Eval α} {act' : Eval β} {next : α → Eval γ} {next' : β → Eval δ}
    {s t : State} (h : Outcomes S P (act.runFrom s) (act'.runFrom t))
    (hn : ∀ a b u v, Returns act s a u → Returns act' t b v → P a b → S u v →
      Outcomes T Q ((next a).runFrom u) ((next' b).runFrom v)) :
    Outcomes T Q ((act >>= next).runFrom s) ((act' >>= next').runFrom t) := by
  rw [runFrom_bind, runFrom_bind]
  generalize hrun : act.runFrom s = run at h ⊢
  generalize hrun' : act'.runFrom t = run' at h ⊢
  cases h with
  | fail => exact .fail
  | yield hp hs => exact hn _ _ _ _ hrun hrun' hp hs

/-- The second run may go on, as long as that does not fail. -/
theorem Outcomes.onward {act : Eval α} {act' : Eval β} {next' : β → Eval γ} {P' : α → γ → Prop}
    {s t : State} (h : Outcomes S P (act.runFrom s) (act'.runFrom t))
    (hn : ∀ a b u v, Returns act' t b v → P a b → S u v →
      ∃ c w, Returns (next' b) v c w ∧ P' a c ∧ T u w) :
    Outcomes T P' (act.runFrom s) ((act' >>= next').runFrom t) := by
  rw [runFrom_bind act' next']
  generalize act.runFrom s = run at h ⊢
  generalize hrun' : act'.runFrom t = run' at h ⊢
  cases h with
  | fail => exact .fail
  | yield hp hs =>
    obtain ⟨c, w, hc, hq, hw⟩ := hn _ _ _ _ hrun' hp hs
    show Outcomes T P' _ ((next' _).runFrom _)
    rw [hc]
    exact .yield hq hw

/-- From related states the evaluations go together. -/
def Relates (S : State → State → Prop) (P : α → β → Prop) (act : Eval α) (act' : Eval β) : Prop :=
  ∀ s t, S s t → Outcomes S P (act.runFrom s) (act'.runFrom t)

namespace Relates

theorem ofExcept {x : Except QueryError α} {y : Except QueryError β} (h : Both P x y) :
    Relates S P (ofExcept x) (ofExcept y) := by
  intro s t hs
  cases h with
  | error => exact .fail
  | ok hp => exact .yield hp hs

theorem pure {a : α} {b : β} (h : P a b) : Relates S P (Pure.pure a) (Pure.pure b) :=
  ofExcept (.ok h)

theorem throw (e e' : QueryError) : Relates S P (throw e) (throw e') := ofExcept .error

theorem bind {act : Eval α} {act' : Eval β} {next : α → Eval γ} {next' : β → Eval δ}
    (h : Relates S P act act') (hn : ∀ a b, P a b → Relates S Q (next a) (next' b)) :
    Relates S Q (act >>= next) (act' >>= next') :=
  fun s t hs => (h s t hs).bind fun a b u v _ _ hab huv => hn a b hab u v huv

theorem mapError {act : Eval α} {act' : Eval β} (reword reword' : QueryError → QueryError)
    (h : Relates S P act act') : Relates S P (act.mapError reword) (act'.mapError reword') := by
  intro s t hs
  have hrun := h s t hs
  rw [runFrom_mapError, runFrom_mapError]
  generalize act.runFrom s = run at hrun ⊢
  generalize act'.runFrom t = run' at hrun ⊢
  cases hrun with
  | fail => exact .fail
  | yield hp hs => exact .yield hp hs

theorem reading {read : Scope → Except QueryError α} {read' : Scope → Except QueryError β}
    (h : ∀ s t, S s t → Both P (read s.scope) (read' t.scope)) :
    Relates S P (reading read) (reading read') :=
  fun s t hs => ofExcept (h s t hs) s t hs

theorem mono {P' : α → β → Prop} {act : Eval α} {act' : Eval β} (h : Relates S P act act')
    (hp : ∀ a b, P a b → P' a b) : Relates S P' act act' := by
  intro s t hs
  have hrun := h s t hs
  generalize act.runFrom s = run at hrun ⊢
  generalize act'.runFrom t = run' at hrun ⊢
  cases hrun with
  | fail => exact .fail
  | yield hab hs => exact .yield (hp _ _ hab) hs

end Relates

/-- Evaluations from related states, loops of them included. -/
def relator (S : State → State → Prop) : Relator Eval := ⟨Relates S, .pure, .bind⟩

end Eval

open Eval

/-! ## Values of queries -/

/-- What can be seen of a table from outside. -/
def Table.content (table : Table) : List String × List (List Value) :=
  (table.fields, table.valueRows)

/-- What can be seen of the outcome of a query; nothing if it fails. -/
def contentOf (outcome : Except QueryError Table) : Option (List String × List (List Value)) :=
  outcome.toOption.map Table.content

theorem Both.contentOf {outcome outcome' : Except QueryError Table}
    (h : Both (fun a b => a.content = b.content) outcome outcome') :
    contentOf outcome = TableQuery.contentOf outcome' := by
  cases h with
  | error => rfl
  | ok h => exact congrArg some h

theorem forall₂_valueRows {a b : Table} (h : a.valueRows = b.valueRows) :
    List.Forall₂ (fun row row' => row.values = row'.values) a.rows b.rows := by
  rw [Table.valueRows, Table.valueRows, ← List.forall₂_eq_eq_eq, List.forall₂_map_left_iff,
    List.forall₂_map_right_iff] at h
  exact h

theorem Table.checkSingleColumn_congr {a b : Table} (h : a.fields = b.fields) :
    a.checkSingleColumn = b.checkSingleColumn := by
  rw [checkSingleColumn, checkSingleColumn, h]

section

variable {S : State → State → Prop} {query query' : Eval Table}
  (h : Relates S (fun a b => a.content = b.content) query query')
include h

theorem Meaning.relates_scalar : Relates S Eq (scalar query) (scalar query') := by
  refine h.bind fun a b hab => ?_
  obtain ⟨hfields, hrows⟩ := Prod.mk.inj hab
  rw [Table.checkSingleColumn_congr hfields]
  refine Relates.bind (.ofExcept (.refl _)) fun _ _ _ => ?_
  have hall := forall₂_valueRows hrows
  generalize a.rows = rows at hall ⊢
  generalize b.rows = rows' at hall ⊢
  cases hall with
  | nil => exact .pure rfl
  | cons hv hrest =>
    cases hrest with
    | nil => exact .pure (by rw [hv])
    | cons _ _ => exact .throw _ _

theorem Meaning.relates_column : Relates S Eq (column query) (column query') := by
  refine h.bind fun a b hab => ?_
  obtain ⟨hfields, hrows⟩ := Prod.mk.inj hab
  rw [Table.checkSingleColumn_congr hfields]
  have hvalues (table : Table) : table.rows.filterMap (·.values.head?) =
      table.valueRows.filterMap List.head? := by
    rw [Table.valueRows, List.filterMap_map]
    rfl
  refine Relates.bind (.ofExcept (.refl _)) fun _ _ _ => .pure ?_
  rw [hvalues, hvalues, hrows]

theorem Meaning.relates_existence :
    Relates S Eq (do return (.boolean !(← query).rows.isEmpty : Value))
      (do return .boolean !(← query').rows.isEmpty) := by
  refine h.bind fun a b hab => .pure ?_
  have hempty (table : Table) : table.rows.isEmpty = table.valueRows.isEmpty :=
    List.isEmpty_map.symm
  rw [hempty, hempty, (Prod.mk.inj hab).2]

end

/-! ## Expressions -/

/-- In related contexts the meaning goes together with itself. -/
def Meaning.Respects (S : State → State → Prop) (C : Context → Context → Prop)
    (meaning : Meaning) : Prop :=
  ∀ context context', C context context' → Relates S Eq (meaning context) (meaning context')

namespace Meaning

variable {env : Environment} {S : State → State → Prop} {C : Context → Context → Prop}
  {context context' : Context}

theorem Respects.condition {meaning : Meaning} (h : meaning.Respects S C)
    (hc : C context context') :
    Relates S Eq (Clause.condition meaning context) (Clause.condition meaning context') :=
  (h _ _ hc).bind fun _ _ hv => .ofExcept (hv ▸ .refl _)

theorem Respects.connective {left right : Meaning} (op : Connective) (hl : left.Respects S C)
    (hr : right.Respects S C) : (connective op left right).Respects S C := by
  intro context context' hc
  refine (hl _ _ hc).bind fun v _ hv => ?_
  subst hv
  refine Relates.bind (.ofExcept (.refl v.truth?)) fun a _ ha => ?_
  subst ha
  split
  · exact .pure rfl
  · refine (hr _ _ hc).bind fun w _ hw => ?_
    subst hw
    refine Relates.bind (.ofExcept (.refl w.truth?)) fun b _ hb => .pure ?_
    rw [hb]

theorem Respects.firstHolding {otherwise : Option Meaning}
    (ho : ∀ meaning, otherwise = some meaning → meaning.Respects S C) :
    ∀ {conditions results : List Meaning}, (∀ meaning ∈ conditions, meaning.Respects S C) →
      (∀ meaning ∈ results, meaning.Respects S C) →
      (firstHolding otherwise conditions results).Respects S C
  | condition :: conditions, result :: results, hcs, hrs => by
    intro context context' hc
    have hfirst := hcs condition List.mem_cons_self
    refine (hfirst.condition hc).bind fun answer _ ha => ?_
    subst ha
    split
    · exact hrs result List.mem_cons_self _ _ hc
    · exact Respects.firstHolding ho (fun m hm => hcs m (List.mem_cons_of_mem _ hm))
        (fun m hm => hrs m (List.mem_cons_of_mem _ hm)) _ _ hc
  | [], _, _, _ | _ :: _, [], _, _ => by
    intro context context' hc
    cases otherwise with
    | none => exact .pure rfl
    | some result => exact ho result rfl _ _ hc

theorem Respects.rowValues {meanings : List Meaning} (h : ∀ m ∈ meanings, m.Respects S C)
    (hc : C context context') :
    Relates S Eq (Clause.rowValues meanings context) (Clause.rowValues meanings context') := by
  have hall : List.Forall₂ (fun m m' => m = m' ∧ m ∈ meanings) meanings meanings :=
    List.forall₂_same.mpr fun m hm => ⟨rfl, hm⟩
  refine ((relator S).mapM (Q := Eq) hall fun m _ hm => ?_).mono fun vs ws hvs => ?_
  · obtain ⟨rfl, hm⟩ := hm
    exact h m hm _ _ hc
  · exact List.forall₂_eq_eq_eq ▸ hvs

end Meaning

/-- What has to be known of columns, of aggregates and of queries for all expressions of some form
to go together with themselves. -/
structure Expr.Leaves (env : Environment) (S : State → State → Prop)
    (C : Context → Context → Prop) (form : Expr → Prop) (Q : Select → Prop) : Prop where
  operands : ∀ {expr part : Expr}, form expr → part ∈ expr.operands → form part
  column : ∀ {ref : ColumnRef}, form (.column ref) → (evaluate env (.column ref)).Respects S C
  aggregate : ∀ {pos : Position} {callee : Expr} {args : List Expr} {star : Bool} {name : String},
    form (.call pos callee args star) → callee.calleeName? = some name →
    env.functions.isAggregate name = true → (∀ arg ∈ args, (evaluate env arg).Respects S C) →
    (Meaning.aggregate env name (args.map (evaluate env)) star).Respects S C
  query : ∀ {expr : Expr} {query : Select}, form expr → expr.query? = some query → Q query →
    Relates S (fun a b => a.content = b.content) (evaluateSelect env query)
      (evaluateSelect env query)

namespace Expr.Leaves

variable {env : Environment} {S : State → State → Prop} {C : Context → Context → Prop}
  {form : Expr → Prop} {Q : Select → Prop} (h : Expr.Leaves env S C form Q)
include h

theorem items {items : List Expr} (hf : ∀ item ∈ items, form item)
    (he : ∀ item ∈ items, (evaluate env item).Respects S C)
    (hq : ∀ query, .subquery query ∈ items → Q query) {context context' : Context}
    (hc : C context context') :
    Relates S Eq (evaluateItems env items context) (evaluateItems env items context') := by
  induction items with
  | nil => exact .pure rfl
  | cons item rest ih =>
    have hrest := ih (fun i hi => hf i (List.mem_cons_of_mem _ hi))
      (fun i hi => he i (List.mem_cons_of_mem _ hi)) fun q hi => hq q (List.mem_cons_of_mem _ hi)
    have hitem := he item List.mem_cons_self _ _ hc
    -- a subquery among the items is evaluated as a column of values and not as one value
    cases item with
    | subquery query =>
      have hquery := h.query (hf _ List.mem_cons_self) rfl (hq query List.mem_cons_self)
      exact (Meaning.relates_column hquery).bind fun _ _ hv => hrest.bind fun _ _ hvs =>
        .pure (hv ▸ hvs ▸ rfl)
    | _ => exact hitem.bind fun _ _ hv => hrest.bind fun _ _ hvs => .pure (hv ▸ hvs ▸ rfl)

theorem call {pos : Position} {callee : Expr} {args : List Expr} {star : Bool}
    (hf : form (.call pos callee args star))
    (ha : ∀ arg ∈ args, (evaluate env arg).Respects S C) :
    (evaluate env (.call pos callee args star)).Respects S C := by
  intro context context' hc
  simp only [evaluate, evaluateEach_eq]
  unfold Meaning.call
  cases hname : callee.calleeName? with
  | none => exact .throw _ _
  | some name =>
    by_cases hagg : env.functions.isAggregate name = true
    · simp only [hagg, if_true]
      exact h.aggregate hf hname hagg ha _ _ hc
    · simp only [hagg]
      have hargs : ∀ m ∈ args.map (evaluate env), m.Respects S C := by
        intro m hm
        obtain ⟨arg, harg, rfl⟩ := List.mem_map.mp hm
        exact ha arg harg
      exact (Meaning.Respects.rowValues hargs hc).bind fun _ _ hv => .ofExcept (hv ▸ .refl _)

/-- All expressions of the form go together with themselves, provided that queries do whose parts
do. -/
theorem steps
    (hselect : ∀ query,
      Select.PartsHold (fun e => form e → (evaluate env e).Respects S C) Q query → Q query) :
    TreeSteps (fun e => form e → (evaluate env e).Respects S C) Q where
  literal pos v _ _ _ _ := by
    simp only [evaluate]
    exact .pure rfl
  column ref hf := h.column hf
  binary pos op left right hl hr hf context context' hc := by
    have hleft := hl (h.operands hf (by simp [Expr.operands])) _ _ hc
    have hright := hr (h.operands hf (by simp [Expr.operands])) _ _ hc
    simp only [evaluate]
    exact hleft.bind fun _ _ ha => hright.bind fun _ _ hb => .ofExcept (ha ▸ hb ▸ .refl _)
  logical pos op left right hl hr hf context context' hc := by
    have hleft := hl (h.operands hf (by simp [Expr.operands]))
    have hright := hr (h.operands hf (by simp [Expr.operands]))
    simp only [evaluate]
    exact hleft.connective op hright _ _ hc
  not pos operand ho hf context context' hc := by
    have hv := ho (h.operands hf (by simp [Expr.operands])) _ _ hc
    simp only [evaluate]
    exact hv.bind fun _ _ hv => .ofExcept (hv ▸ .refl _)
  negate pos operand ho hf context context' hc := by
    have hv := ho (h.operands hf (by simp [Expr.operands])) _ _ hc
    simp only [evaluate]
    exact hv.bind fun _ _ hv => .ofExcept (hv ▸ .refl _)
  between pos value low high hv hl hh hf context context' hc := by
    have hvalue := hv (h.operands hf (by simp [Expr.operands])) _ _ hc
    have hlow := hl (h.operands hf (by simp [Expr.operands])) _ _ hc
    have hhigh := hh (h.operands hf (by simp [Expr.operands])) _ _ hc
    simp only [evaluate]
    exact hvalue.bind fun _ _ hv => hlow.bind fun _ _ ha => hhigh.bind fun _ _ hb =>
      .ofExcept (hv ▸ ha ▸ hb ▸ .refl _)
  member pos value items hv hi hq hf context context' hc := by
    have hforms : ∀ item ∈ items, form item := fun item hm =>
      h.operands hf (List.mem_cons_of_mem _ hm)
    have hvalue := hv (h.operands hf List.mem_cons_self) _ _ hc
    have hitems := h.items hforms (fun item hm => hi item hm (hforms item hm)) hq hc
    simp only [evaluate]
    exact hvalue.bind fun _ _ hv => hitems.bind fun _ _ hvs => .pure (hv ▸ hvs ▸ rfl)
  like pos value pattern ignoreCase hv hp hf context context' hc := by
    have hvalue := hv (h.operands hf (by simp [Expr.operands])) _ _ hc
    have hpattern := hp (h.operands hf (by simp [Expr.operands])) _ _ hc
    simp only [evaluate]
    exact hvalue.bind fun _ _ hv => hpattern.bind fun _ _ hp => .ofExcept (hv ▸ hp ▸ .refl _)
  isNull pos operand ho hf context context' hc := by
    have hv := ho (h.operands hf (by simp [Expr.operands])) _ _ hc
    simp only [evaluate]
    exact hv.bind fun _ _ hv => .pure (hv ▸ rfl)
  case pos whens thens otherwise hw ht ho hf context context' hc := by
    have hwhens : ∀ m ∈ whens.map (evaluate env), m.Respects S C := by
      intro m hm
      obtain ⟨expr, he, rfl⟩ := List.mem_map.mp hm
      exact hw expr he (h.operands hf (by simp [Expr.operands, he]))
    have hthens : ∀ m ∈ thens.map (evaluate env), m.Respects S C := by
      intro m hm
      obtain ⟨expr, he, rfl⟩ := List.mem_map.mp hm
      exact ht expr he (h.operands hf (by simp [Expr.operands, he]))
    have hotherwise : ∀ m, otherwise.map (evaluate env) = some m → m.Respects S C := by
      intro m hm
      obtain ⟨expr, he, rfl⟩ := Option.map_eq_some_iff.mp hm
      exact ho expr he (h.operands hf (by simp [Expr.operands, he]))
    simp only [evaluate, evaluateEach_eq, evaluateOption_eq]
    split
    · exact .throw _ _
    · exact Meaning.Respects.firstHolding hotherwise hwhens hthens _ _ hc
  call pos callee args star ha hf :=
    h.call hf fun arg hm => ha arg hm (h.operands hf hm)
  group pos inner hi hf context context' hc := by
    simp only [evaluate]
    exact hi (h.operands hf List.mem_cons_self) _ _ hc
  existence pos query hq hf context context' _ := by
    simp only [evaluate]
    exact Meaning.relates_existence (h.query hf rfl hq)
  subquery query hq hf context context' _ := by
    simp only [evaluate]
    exact Meaning.relates_scalar (h.query hf rfl hq)
  select := hselect

end Expr.Leaves

end TableQuery
