import TableQuery.Proofs.Evaluation.Relational
import TableQuery.Proofs.Query.Layout

/-! # Positions under evaluation

Positions go from trees into failures, and nothing else depends on them. So a query with other
positions has the same table, or fails in the same way with other positions in the failure; the
scope and the counter are the same after it, too. -/

namespace TableQuery

/-! ## Failures without positions -/

def GroupFault.unplaced : GroupFault → GroupFault
  | havingAlone _ => havingAlone .start
  | keyNotColumn _ => keyNotColumn .start
  | neitherKeyNorAggregate _ => neitherKeyNorAggregate .start
  | ungrouped column => ungrouped column

def Unnamed.unplaced : Unnamed → Unnamed
  | joinedTable table _ => joinedTable table .start
  | subquery _ => subquery .start

def ExecutionFault.unplaced : ExecutionFault → ExecutionFault
  | caseBranches _ whens thens => caseBranches .start whens thens
  | noSortKey => noSortKey
  | unnamedCall _ => unnamedCall .start
  | reported text => reported text

/-- The failure with one position in all places. -/
def QueryError.unplaced : QueryError → QueryError
  | malformedGroup fault => malformedGroup fault.unplaced
  | slice clause reason => slice clause reason.unplaced
  | joinKind kind _ => joinKind kind .start
  | missingLabel subject => missingLabel subject.unplaced
  | execution fault => execution fault.unplaced
  | parse error => parse error.unplaced
  | e => e

theorem GroupFault.message_upToPlaces {e e' : GroupFault} (h : e.unplaced = e'.unplaced) :
    UpToPlaces e.message e'.message := by
  cases e <;> cases e' <;> cases h
  case havingAlone => exact .behind _ (.place _ _)
  case keyNotColumn => exact (UpToPlaces.behind _ (.place _ _)).before _
  case neitherKeyNorAggregate => exact .behind _ (.place _ _)
  case ungrouped => exact .same _

theorem Unnamed.message_upToPlaces {e e' : Unnamed} (h : e.unplaced = e'.unplaced) :
    UpToPlaces e.message e'.message := by
  cases e <;> cases e' <;> cases h <;> exact .behind _ (.place _ _)

theorem ExecutionFault.message_upToPlaces {e e' : ExecutionFault} (h : e.unplaced = e'.unplaced) :
    UpToPlaces e.message e'.message := by
  cases e <;> cases e' <;> cases h
  case caseBranches =>
    exact ((((UpToPlaces.behind _ (.place _ _)).before _).before _).before _).before _ |>.before _
  case noSortKey | reported => exact .same _
  case unnamedCall => exact .behind _ (.place _ _)

theorem QueryError.message_upToPlaces {e e' : QueryError} (h : e.unplaced = e'.unplaced) :
    UpToPlaces e.message e'.message := by
  induction e generalizing e' with
  | malformedGroup fault =>
    cases e' <;> simp only [unplaced, reduceCtorEq] at h
    exact .behind _ (GroupFault.message_upToPlaces (malformedGroup.inj h))
  | slice clause reason ih =>
    cases e' <;> simp only [unplaced, reduceCtorEq] at h
    obtain ⟨rfl, hr⟩ := slice.inj h
    exact .behind _ (ih hr)
  | joinKind kind pos =>
    cases e' <;> simp only [unplaced, reduceCtorEq] at h
    obtain ⟨rfl, -⟩ := joinKind.inj h
    exact .behind _ (.place _ _)
  | missingLabel subject =>
    cases e' <;> simp only [unplaced, reduceCtorEq] at h
    exact .behind _ (Unnamed.message_upToPlaces (missingLabel.inj h))
  | execution fault =>
    cases e' <;> simp only [unplaced, reduceCtorEq] at h
    exact .behind _ (ExecutionFault.message_upToPlaces (execution.inj h))
  | parse error =>
    cases e' <;> simp only [unplaced, reduceCtorEq] at h
    exact .behind _ (ParseError.message_upToPlaces (parse.inj h))
  | _ =>
    -- the others have no positions in them
    cases e' <;> cases h
    exact .same _

/-- Grouping makes another failure of some, wherever they are placed. -/
theorem Clause.unplaced_ungrouped (e : QueryError) :
    (ungrouped e).unplaced = ungrouped e.unplaced := by
  cases e <;> rfl

/-! ## Agreement -/

/-- Both outcomes are failures that differ in positions only, or values that are related. -/
inductive Matching {α β : Type} (P : α → β → Prop) :
    Except QueryError α → Except QueryError β → Prop
  | error {e e' : QueryError} (h : e.unplaced = e'.unplaced) : Matching P (.error e) (.error e')
  | ok {a : α} {b : β} (h : P a b) : Matching P (.ok a) (.ok b)

namespace Matching

variable {α β γ δ : Type} {P : α → β → Prop} {Q : γ → δ → Prop} {x : Except QueryError α}
  {y : Except QueryError β}

theorem refl (outcome : Except QueryError α) : Matching Eq outcome outcome := by
  cases outcome with
  | error e => exact .error rfl
  | ok a => exact .ok rfl

theorem bind {f : α → Except QueryError γ} {g : β → Except QueryError δ} (h : Matching P x y)
    (hn : ∀ a b, P a b → Matching Q (f a) (g b)) : Matching Q (x >>= f) (y >>= g) := by
  cases h with
  | error he => exact .error he
  | ok hab => exact hn _ _ hab

theorem symm {x y : Except QueryError α} (h : Matching Eq x y) : Matching Eq y x := by
  cases h with
  | error he => exact .error he.symm
  | ok hab => exact .ok hab.symm

theorem trans {x y z : Except QueryError α} (h : Matching Eq x y) (h' : Matching Eq y z) :
    Matching Eq x z := by
  cases h with
  | error he =>
    cases h' with
    | error he' => exact .error (he.trans he')
  | ok hab => exact hab ▸ h'

theorem mapError (h : Matching P x y) {reword : QueryError → QueryError}
    (hr : ∀ e e', e.unplaced = e'.unplaced → (reword e).unplaced = (reword e').unplaced) :
    Matching P (x.mapError reword) (y.mapError reword) := by
  cases h with
  | error he => exact .error (hr _ _ he)
  | ok hab => exact .ok hab

end Matching

namespace Eval

variable {α β γ δ : Type} {P : α → β → Prop} {Q : γ → δ → Prop} {act : Eval α} {act' : Eval β}

/-- From one state, both evaluations come to outcomes that match, and to one state. -/
def Agrees (P : α → β → Prop) (act : Eval α) (act' : Eval β) : Prop :=
  ∀ s, Matching P (act.runFrom s).1 (act'.runFrom s).1 ∧ (act.runFrom s).2 = (act'.runFrom s).2

namespace Agrees

theorem ofExcept {x : Except QueryError α} {y : Except QueryError β} (h : Matching P x y) :
    Agrees P (ofExcept x) (ofExcept y) := fun _ => ⟨h, rfl⟩

theorem same (x : Except QueryError α) : Agrees Eq (Eval.ofExcept x) (Eval.ofExcept x) :=
  ofExcept (.refl x)

theorem pure {a : α} {b : β} (h : P a b) : Agrees P (Pure.pure a) (Pure.pure b) := ofExcept (.ok h)

theorem throw {e e' : QueryError} (h : e.unplaced = e'.unplaced) :
    Agrees P (throw e) (throw e') := ofExcept (.error h)

theorem refl (act : Eval α) : Agrees Eq act act := fun _ => ⟨.refl _, rfl⟩

theorem bind {next : α → Eval γ} {next' : β → Eval δ} (h : Agrees P act act')
    (hn : ∀ a b, P a b → Agrees Q (next a) (next' b)) :
    Agrees Q (act >>= next) (act' >>= next') := by
  intro s
  have hrun := h s
  rw [runFrom_bind, runFrom_bind]
  generalize act.runFrom s = run at hrun ⊢
  generalize act'.runFrom s = run' at hrun ⊢
  obtain ⟨outcome, t⟩ := run
  obtain ⟨outcome', t'⟩ := run'
  obtain ⟨ho, rfl⟩ := hrun
  cases ho with
  | error he => exact ⟨.error he, rfl⟩
  | ok hab => exact hn _ _ hab t

/-- The rule where both evaluations yield the same. -/
theorem seq {act act' : Eval α} {next next' : α → Eval β} (h : Agrees Eq act act')
    (hn : ∀ a, Agrees Eq (next a) (next' a)) : Agrees Eq (act >>= next) (act' >>= next') :=
  h.bind fun _ _ hab => hab ▸ hn _

theorem mono {P' : α → β → Prop} (h : Agrees P act act') (hp : ∀ a b, P a b → P' a b) :
    Agrees P' act act' := by
  intro s
  obtain ⟨ho, hs⟩ := h s
  refine ⟨?_, hs⟩
  generalize (act.runFrom s).1 = outcome at ho ⊢
  generalize (act'.runFrom s).1 = outcome' at ho ⊢
  cases ho with
  | error he => exact .error he
  | ok hab => exact .ok (hp _ _ hab)

theorem mapError {reword : QueryError → QueryError} (h : Agrees P act act')
    (hr : ∀ e e', e.unplaced = e'.unplaced → (reword e).unplaced = (reword e').unplaced) :
    Agrees P (act.mapError reword) (act'.mapError reword) :=
  fun s => ⟨(h s).1.mapError hr, (h s).2⟩

theorem reading {read : Scope → Except QueryError α} {read' : Scope → Except QueryError β}
    (h : ∀ scope, Matching P (read scope) (read' scope)) :
    Agrees P (reading read) (reading read') := fun s => ⟨h s.scope, rfl⟩

theorem inChildScope (h : Agrees P act act') : Agrees P act.inChildScope act'.inChildScope :=
  fun s => ⟨(h _).1, congrArg (fun t : State =>
    { t with scope := t.scope.pop, groupSource := s.groupSource }) (h _).2⟩

theorem overProjection (projected : Table) (h : Agrees P act act') :
    Agrees P (act.overProjection projected) (act'.overProjection projected) :=
  fun s => ⟨(h _).1, congrArg (fun t : State => { t with groupSource := s.groupSource }) (h _).2⟩

theorem inGroupSource (h : Agrees P act act') : Agrees P act.inGroupSource act'.inGroupSource := by
  rintro ⟨scope, source?, n⟩
  cases source? with
  | none => exact h _
  | some source =>
    exact ⟨(h _).1, congrArg (fun t : State =>
      { t with
        scope := t.scope.replace scope.innermost
        groupSource := some t.scope.innermost }) (h _).2⟩

end Agrees

/-- Evaluations that agree, loops of them included. -/
def agreeing : Relator Eval := ⟨Agrees, .pure, .bind⟩

namespace Agrees

theorem mapM {R : α → β → Prop} {as : List α} {bs : List β} {f : α → Eval γ} {g : β → Eval γ}
    (h : List.Forall₂ R as bs) (hs : ∀ a b, R a b → Agrees Eq (f a) (g b)) :
    Agrees Eq (as.mapM f) (bs.mapM g) :=
  (agreeing.mapM h hs).mono fun _ _ hall => List.forall₂_eq_eq_eq ▸ hall

/-- The same loop with other rounds. -/
theorem mapM_same {as : List α} {f g : α → Eval γ} (hs : ∀ a, Agrees Eq (f a) (g a)) :
    Agrees Eq (as.mapM f) (as.mapM g) :=
  mapM (List.forall₂_same.mpr fun _ _ => rfl) fun a _ hab => hab ▸ hs a

theorem keepM {as : List α} {f g : α → Eval Bool} (hs : ∀ a, Agrees Eq (f a) (g a)) :
    Agrees Eq (keepM f as) (TableQuery.keepM g as) := by
  have hsame : List.Forall₂ (Eq (α := α)) as as := List.forall₂_same.mpr fun _ _ => rfl
  exact (agreeing.keepM hsame fun a _ hab => hab ▸ hs a).mono fun _ _ hall =>
    List.forall₂_eq_eq_eq ▸ hall

end Agrees

end Eval

open Eval

/-! ## Expressions -/

namespace Meaning

/-- In every context the meanings agree. -/
def Agrees (meaning meaning' : Meaning) : Prop :=
  ∀ context, Eval.Agrees Eq (meaning context) (meaning' context)

variable {left left' right right' : Meaning} {query query' : Eval Table}
  {meanings meanings' : List Meaning}

theorem Agrees.condition (h : left.Agrees left') (context : Context) :
    Eval.Agrees Eq (Clause.condition left context) (Clause.condition left' context) :=
  (h context).seq fun v => .same v.holds

theorem Agrees.connective (op : Connective) (hl : left.Agrees left') (hr : right.Agrees right') :
    (connective op left right).Agrees (connective op left' right') := by
  intro context
  refine (hl context).seq fun v => (Eval.Agrees.same v.truth?).seq fun a => ?_
  split
  · exact .refl _
  · exact (hr context).seq fun w => (Eval.Agrees.same w.truth?).seq fun b => .refl _

theorem Agrees.firstHolding {otherwise otherwise' : Option Meaning}
    {results results' : List Meaning}
    (ho : Option.Rel Agrees otherwise otherwise') (hm : List.Forall₂ Agrees meanings meanings')
    (hr : List.Forall₂ Agrees results results') :
    (firstHolding otherwise meanings results).Agrees
      (firstHolding otherwise' meanings' results') := by
  intro context
  induction hm generalizing results results' with
  | nil =>
    cases ho with
    | none => exact .refl _
    | some h => exact h context
  | cons hcondition _ ih =>
    cases hr with
    | nil =>
      cases ho with
      | none => exact .refl _
      | some h => exact h context
    | cons hresult hrest =>
      refine (hcondition.condition context).seq fun holds => ?_
      split
      · exact hresult context
      · exact ih hrest

theorem agrees_scalar (h : Eval.Agrees Eq query query') :
    Eval.Agrees Eq (scalar query) (scalar query') := h.seq fun _ => .refl _

theorem agrees_column (h : Eval.Agrees Eq query query') :
    Eval.Agrees Eq (column query) (column query') := h.seq fun _ => .refl _

theorem agrees_rowValues (h : List.Forall₂ Agrees meanings meanings') (context : Context) :
    Eval.Agrees Eq (Clause.rowValues meanings context) (Clause.rowValues meanings' context) :=
  .mapM h fun _ _ hm => hm context

theorem agrees_aggregate (env : Environment) (name : String) (star : Bool)
    (h : List.Forall₂ Agrees meanings meanings') :
    (aggregate env name meanings star).Agrees (aggregate env name meanings' star) := by
  intro context
  unfold aggregate
  cases context.group with
  | none => exact .refl _
  | some rows =>
    rw [h.length_eq]
    refine (Eval.Agrees.same _).seq fun function => ?_
    cases star with
    | true => exact .refl _
    | false =>
      cases h with
      | nil => exact .refl _
      | cons harg _ =>
        exact (Eval.Agrees.mapM_same fun row => harg (.ofRow row)).inGroupSource.seq fun _ =>
          .refl _

theorem agrees_call (env : Environment) (pos pos' : Position) (name : Option String) (star : Bool)
    (h : List.Forall₂ Agrees meanings meanings') :
    (call env pos name meanings star).Agrees (call env pos' name meanings' star) := by
  intro context
  cases name with
  | none => exact .throw rfl
  | some name =>
    simp only [call]
    split
    · exact agrees_aggregate env name star h context
    · exact (agrees_rowValues h context).seq fun _ => .refl _

end Meaning

/-! ## Clauses -/

namespace Clause

variable {meaning? meaning?' : Option Meaning} {meanings meanings' : List Meaning}

theorem agrees_filter (h : Option.Rel Meaning.Agrees meaning? meaning?') (table : Table) :
    Agrees Eq (filter meaning? table) (filter meaning?' table) := by
  cases h with
  | none => exact .refl _
  | some h => exact (Agrees.keepM fun row => h.condition (.ofRow row)).seq fun _ => .refl _

theorem agrees_single (fields : List String) (h : List.Forall₂ Meaning.Agrees meanings meanings') :
    Agrees Eq (single fields meanings) (single fields meanings') :=
  (Meaning.agrees_rowValues h .none).seq fun _ => .refl _

theorem agrees_project (fields : List String) (table : Table)
    (h : List.Forall₂ Meaning.Agrees meanings meanings') :
    Agrees Eq (project fields meanings table) (project fields meanings' table) := by
  refine Agrees.seq ?_ fun _ => .refl _
  refine (Agrees.mapM_same fun row => ?_).seq fun _ => .refl _
  exact (Meaning.agrees_rowValues h (.ofRow row)).seq fun _ => .refl _

theorem agrees_groupTable (name : String) (fields : List String) (groups : List Group)
    (h : List.Forall₂ Meaning.Agrees meanings meanings') :
    Agrees Eq (groupTable name fields meanings groups)
      (groupTable name fields meanings' groups) := by
  refine (Agrees.mapM_same fun group => ?_).seq fun _ => .refl _
  refine (Agrees.mapM h fun m m' hm => ?_).seq fun _ => .refl _
  refine (hm (.ofGroup group.keyRow group.rows)).mapError fun e e' he => ?_
  rw [unplaced_ungrouped, unplaced_ungrouped, he]

theorem agrees_having (h : Option.Rel Meaning.Agrees meaning? meaning?') (groups : List Group)
    (table : Table) : Agrees Eq (having meaning? groups table) (having meaning?' groups table) := by
  cases h with
  | none => exact .refl _
  | some h =>
    exact (Agrees.keepM fun pair : Row × Group =>
      h.condition (.ofGroup pair.1 pair.2.rows)).overProjection table |>.seq fun _ => .refl _

theorem agrees_rowCount {meaning meaning' : Meaning} (clause : SliceClause)
    (h : meaning.Agrees meaning') :
    Agrees Eq (rowCount clause meaning) (rowCount clause meaning') := by
  refine Agrees.seq ?_ fun _ => .refl _
  exact (h .none).mapError fun e e' he => congrArg (QueryError.slice clause) he

theorem agrees_offset (h : Option.Rel Meaning.Agrees meaning? meaning?') (table : Table) :
    Agrees Eq (offset meaning? table) (offset meaning?' table) := by
  cases h with
  | none => exact .refl _
  | some h => exact (agrees_rowCount .offset h).seq fun _ => .refl _

theorem agrees_limit (h : Option.Rel Meaning.Agrees meaning? meaning?') (table : Table) :
    Agrees Eq (limit meaning? table) (limit meaning?' table) := by
  cases h with
  | none => exact .refl _
  | some h => exact (agrees_rowCount .limit h).seq fun _ => .refl _

theorem agrees_joinRows {meaning meaning' : Meaning} (h : meaning.Agrees meaning') (outer : Bool)
    (right : Table) (rows : List Row) :
    Agrees Eq (Table.joinRows outer right (fun row => condition meaning (.ofRow row)) rows)
      (Table.joinRows outer right (fun row => condition meaning' (.ofRow row)) rows) := by
  induction rows with
  | nil => exact .refl _
  | cons row rest ih =>
    exact (Agrees.keepM fun row => h.condition (.ofRow row)).seq fun _ => ih.seq fun _ => .refl _

theorem agrees_join (pos pos' : Position) (kind : JoinKind) {right right' : Eval Table}
    (hr : Agrees Eq right right') (hm : Option.Rel Meaning.Agrees meaning? meaning?')
    (left : Table) :
    Agrees Eq (join pos kind right meaning? left) (join pos' kind right' meaning?' left) := by
  unfold join
  split
  · exact .throw rfl
  · refine hr.seq fun table => ?_
    split
    · exact .refl _
    · cases hm with
      | none => exact .refl _
      | some h => exact (agrees_joinRows h _ table left.rows).seq fun _ => .refl _

theorem agrees_boundTable (joined : Bool) (pos pos' : Position) (name : String)
    (label : Option String) :
    Agrees Eq (boundTable joined pos name label) (boundTable joined pos' name label) := by
  refine .reading fun scope => ?_
  cases scope.find? name with
  | none => exact .refl _
  | some table =>
    cases joined with
    | false => exact .refl _
    | true =>
      cases label with
      | none => exact .error rfl
      | some label => exact .refl _

theorem agrees_derivedTable (pos pos' : Position) (label : Option String)
    {query query' : Eval Table} (h : Agrees Eq query query') :
    Agrees Eq (derivedTable pos label query) (derivedTable pos' label query') := by
  cases label with
  | none => exact .throw rfl
  | some label => exact (Agrees.refl _).seq fun _ => h.seq fun _ => .refl _

end Clause

/-! ## Trees without positions -/

theorem Expr.calleeName?_unplaced (callee : Expr) :
    callee.unplaced.calleeName? = callee.calleeName? := by
  cases callee with
  | column ref => obtain ⟨_, table, _⟩ := ref; cases table <;> rfl
  | _ => rfl

theorem Clause.outputNames_unplaced (columns : List SelectColumn) :
    outputNames (columns.map (·.unplaced)) = outputNames columns := by
  have hname (i : Nat) (column : SelectColumn) :
      outputName i column.unplaced = outputName i column := by
    obtain ⟨expr, label⟩ := column
    cases label <;> cases expr <;> rfl
  refine List.ext_getElem (by simp [outputNames]) fun i _ _ => ?_
  simp [outputNames, hname]

theorem Clause.groupable_unplaced (functions : Registry) (expr : Expr) :
    groupable functions expr.unplaced = groupable functions expr := by
  cases expr with
  | call pos callee args star =>
    cases callee with
    | column ref => obtain ⟨_, table, _⟩ := ref; cases table <;> rfl
    | _ => rfl
  | _ => rfl

theorem Clause.checkGroupable_unplaced (functions : Registry) (columns : List SelectColumn) :
    Matching Eq (checkGroupable functions columns)
      (checkGroupable functions (columns.map (·.unplaced))) := by
  have hfind : (columns.map (·.unplaced)).find? (fun column => !groupable functions column.expr) =
      (columns.find? fun column => !groupable functions column.expr).map (·.unplaced) := by
    rw [List.find?_map]
    congr 2
    exact funext fun column => congrArg (!·) (groupable_unplaced functions column.expr)
  unfold checkGroupable
  rw [hfind]
  cases columns.find? fun column => !groupable functions column.expr with
  | none => exact .ok rfl
  | some column => exact .error rfl

theorem Clause.groupColumns_unplaced (keys : List Expr) :
    Matching (fun refs refs' => refs' = refs.map ColumnRef.unplaced) (groupColumns keys)
      (groupColumns (keys.map (·.unplaced))) := by
  induction keys with
  | nil => exact .ok rfl
  | cons key rest ih =>
    unfold groupColumns at ih ⊢
    rw [List.map_cons, List.mapM_cons, List.mapM_cons]
    cases key with
    | column ref => exact ih.bind fun refs refs' hrefs => .ok (congrArg (ref.unplaced :: ·) hrefs)
    | _ => exact .error rfl

/-- The groups are made of the same rows, whatever the positions of the keys are. -/
theorem Clause.agrees_groups (functions : Registry) (keys : List Expr)
    (columns : List SelectColumn) (table : Table) :
    Agrees Eq (groups functions keys columns table)
      (groups functions (keys.map (·.unplaced)) (columns.map (·.unplaced)) table) := by
  refine .reading fun scope => (groupColumns_unplaced keys).bind fun refs refs' hrefs =>
    (checkGroupable_unplaced functions columns).bind fun _ _ _ => ?_
  have hkeys : (fun row => refs'.mapM fun ref => scope.resolve ref row) =
      fun row => refs.mapM fun ref => scope.resolve ref row := by
    funext row
    rw [hrefs, List.mapM_map]
    rfl
  rw [hkeys]
  exact .refl _

theorem Clause.order_unplaced (keys : List OrderKey) (table : Table) :
    order (keys.map (·.unplaced)) table = order keys table := by
  unfold order
  rw [List.isEmpty_map, List.map_map]
  have hkeys (scope : Scope) (row : Row) :
      ((keys.map (·.unplaced)).mapM fun key => (·.2) <$> scope.resolve key.column row) =
        keys.mapM fun key => (·.2) <$> scope.resolve key.column row := by
    rw [List.mapM_map]
    rfl
  simp only [hkeys]
  rfl

/-! ## Evaluation -/

/-- The expression without its positions has the values that it has with them. -/
def Expr.Placeless (env : Environment) (expr : Expr) : Prop :=
  (evaluate env expr).Agrees (evaluate env expr.unplaced)

/-- The query without its positions has the table that it has with them. -/
def Select.Placeless (env : Environment) (query : Select) : Prop :=
  Agrees Eq (evaluateSelect env query) (evaluateSelect env query.unplaced)

variable {env : Environment}

theorem forall₂_placeless {exprs : List Expr} (h : ∀ expr ∈ exprs, expr.Placeless env) :
    List.Forall₂ Meaning.Agrees (exprs.map (evaluate env))
      ((exprs.map (·.unplaced)).map (evaluate env)) := by
  rw [List.forall₂_map_left_iff, List.forall₂_map_right_iff, List.forall₂_map_right_iff,
    List.forall₂_same]
  exact h

theorem rel_placeless {expr? : Option Expr} (h : ∀ expr, expr? = some expr → expr.Placeless env) :
    Option.Rel Meaning.Agrees (expr?.map (evaluate env))
      ((expr?.map (·.unplaced)).map (evaluate env)) := by
  cases expr? with
  | none => exact .none
  | some expr => exact .some (h expr rfl)

theorem agrees_items {items : List Expr} (context : Context)
    (hi : ∀ item ∈ items, item.Placeless env)
    (hq : ∀ query, .subquery query ∈ items → query.Placeless env) :
    Agrees Eq (evaluateItems env items context)
      (evaluateItems env (items.map (·.unplaced)) context) := by
  induction items with
  | nil => exact .refl _
  | cons item rest ih =>
    have hrest := ih (fun other hm => hi other (List.mem_cons_of_mem _ hm))
      fun query hm => hq query (List.mem_cons_of_mem _ hm)
    have hitem := hi item List.mem_cons_self context
    cases item with
    | subquery query =>
      exact (Meaning.agrees_column (hq query List.mem_cons_self)).seq fun _ =>
        hrest.seq fun _ => .refl _
    | _ => exact hitem.seq fun _ => hrest.seq fun _ => .refl _

theorem agrees_tableRef (joined : Bool) {ref : TableRef}
    (h : ∀ inner, ref.source = .subquery inner → inner.Placeless env) :
    Agrees Eq (evaluateTableRef env joined ref) (evaluateTableRef env joined ref.unplaced) := by
  obtain ⟨pos, source, label⟩ := ref
  rw [evaluateTableRef_eq, evaluateTableRef_eq]
  cases source with
  | table name =>
    exact (Clause.agrees_boundTable joined pos .start name label).seq fun _ => .refl _
  | subquery inner =>
    exact (Clause.agrees_derivedTable pos .start label (h inner rfl)).seq fun _ => .refl _

theorem agrees_joins {joins : List Join}
    (hq : ∀ join ∈ joins, ∀ inner, join.table.source = .subquery inner → inner.Placeless env)
    (hc : ∀ join ∈ joins, ∀ expr, join.condition = some expr → expr.Placeless env) :
    List.Forall₂ (fun act act' => ∀ left, Agrees Eq (act left) (act' left))
      (joins.map (evaluateJoin env)) ((unplacedJoins joins).map (evaluateJoin env)) := by
  induction joins with
  | nil => exact .nil
  | cons join rest ih =>
    have hrest := ih (fun j hj => hq j (List.mem_cons_of_mem _ hj))
      fun j hj => hc j (List.mem_cons_of_mem _ hj)
    have htable := agrees_tableRef true (hq join List.mem_cons_self)
    have hcondition := rel_placeless (hc join List.mem_cons_self)
    obtain ⟨pos, kind, table, condition⟩ := join
    rw [unplacedJoins, List.map_cons, List.map_cons]
    refine .cons (fun left => ?_) hrest
    rw [evaluateJoin_eq, evaluateJoin_eq, unplacedOption_eq]
    exact Clause.agrees_join pos .start kind htable hcondition left

namespace Select

variable {query : Select} (h : query.PartsHold (Expr.Placeless env) (Select.Placeless env))
include h

theorem forall₂_columns : List.Forall₂ Meaning.Agrees
    (query.columns.map fun column => evaluate env column.expr)
    ((query.columns.map (·.unplaced)).map fun column => evaluate env column.expr) := by
  rw [List.forall₂_map_left_iff, List.forall₂_map_right_iff, List.forall₂_map_right_iff,
    List.forall₂_same]
  exact h.columns

theorem agrees_filtered {ref : TableRef} (hs : query.source = some ref) :
    Agrees Eq ((query.parts env).filtered (evaluateTableRef env false ref))
      ((query.unplaced.parts env).filtered (evaluateTableRef env false ref.unplaced)) := by
  have hjoins := agrees_joins h.joins h.conditions
  rw [unplaced_eq]
  refine Agrees.seq (Agrees.seq (agrees_tableRef false (h.source ref hs)) fun table => ?_)
    fun table => Clause.agrees_filter (rel_placeless h.filter) table
  exact agreeing.foldlM hjoins (fun left left' _ _ hleft hact => hleft ▸ hact left) rfl

theorem agrees_selected {ref : TableRef} (hs : query.source = some ref) :
    Agrees Eq ((query.parts env).selected env query (evaluateTableRef env false ref))
      ((query.unplaced.parts env).selected env query.unplaced
        (evaluateTableRef env false ref.unplaced)) := by
  have hcolumns := forall₂_columns h
  have hfiltered := agrees_filtered h hs
  rw [unplaced_eq] at hfiltered ⊢
  refine hfiltered.seq fun table => ?_
  dsimp only [parts]
  rw [List.isEmpty_map, Clause.outputNames_unplaced]
  split
  · exact Clause.agrees_project _ table hcolumns
  · unfold Clause.group
    refine (Clause.agrees_groups _ _ _ table).seq fun groups => ?_
    rw [Clause.outputNames_unplaced]
    exact (Clause.agrees_groupTable _ _ groups hcolumns).seq fun projected =>
      Clause.agrees_having (rel_placeless h.having) groups projected

theorem agrees_skipped {ref : TableRef} (hs : query.source = some ref) :
    Agrees Eq ((query.parts env).skipped env query (evaluateTableRef env false ref))
      ((query.unplaced.parts env).skipped env query.unplaced
        (evaluateTableRef env false ref.unplaced)) := by
  have hselected := agrees_selected h hs
  rw [unplaced_eq] at hselected ⊢
  refine Agrees.seq (hselected.seq fun table => ?_) fun table =>
    Clause.agrees_offset (rel_placeless h.offset) table
  dsimp only
  rw [List.isEmpty_map, Clause.order_unplaced]
  exact .refl _

theorem agrees_pipeline : Agrees Eq (query.pipeline env) (query.unplaced.pipeline env) := by
  have hskipped := fun ref (hs : query.source = some ref) => agrees_skipped h hs
  unfold pipeline Pipeline.run
  rw [unplaced_eq] at hskipped ⊢
  dsimp only [parts] at hskipped ⊢
  rw [Clause.outputNames_unplaced, Option.isSome_map, List.isEmpty_map]
  split
  · exact .refl _
  · cases hs : query.source with
    | none => exact Clause.agrees_single _ (forall₂_columns h)
    | some ref =>
      dsimp only [Option.map_some]
      split
      · exact .throw rfl
      · exact (hskipped ref hs).seq fun table => Clause.agrees_limit (rel_placeless h.limit) table

end Select

/-- Nothing but failures shows where the parts of expressions and queries stand. -/
theorem placeless_steps (env : Environment) :
    TreeSteps (Expr.Placeless env) (Select.Placeless env) where
  literal pos v context := .refl _
  column ref context := .refl _
  binary pos op left right hl hr context :=
    (hl context).seq fun _ => (hr context).seq fun _ => .refl _
  logical pos op left right hl hr := Meaning.Agrees.connective op hl hr
  not pos operand ho context := (ho context).seq fun _ => .refl _
  negate pos operand ho context := (ho context).seq fun _ => .refl _
  between pos value low high hv hl hh context :=
    (hv context).seq fun _ => (hl context).seq fun _ => (hh context).seq fun _ => .refl _
  member pos value items hv hi hq context := by
    simp only [Expr.unplaced, evaluate, unplacedEach_eq]
    exact (hv context).seq fun _ => (agrees_items context hi hq).seq fun _ => .refl _
  like pos value pattern ignoreCase hv hp context :=
    (hv context).seq fun _ => (hp context).seq fun _ => .refl _
  isNull pos operand ho context := (ho context).seq fun _ => .refl _
  case pos whens thens otherwise hw ht ho context := by
    simp only [Expr.unplaced, evaluate, unplacedEach_eq, unplacedOption_eq, evaluateEach_eq,
      evaluateOption_eq, List.length_map]
    split
    · exact .throw rfl
    · exact Meaning.Agrees.firstHolding (rel_placeless ho) (forall₂_placeless hw)
        (forall₂_placeless ht) context
  call pos callee args star ha context := by
    simp only [Expr.unplaced, evaluate, unplacedEach_eq, evaluateEach_eq,
      Expr.calleeName?_unplaced]
    exact Meaning.agrees_call env pos .start _ star (forall₂_placeless ha) context
  group pos inner hi := hi
  existence pos query hq context := hq.seq fun _ => .refl _
  subquery query hq context := Meaning.agrees_scalar hq
  select query h := by
    unfold Select.Placeless
    rw [evaluateSelect_eq, evaluateSelect_eq]
    exact (Select.agrees_pipeline h).inChildScope

/-- Queries that differ in positions only have one table, or fail in ways that differ in positions
only; either way they leave one state. -/
theorem evaluateSelect_placeless (env : Environment) {query query' : Select}
    (h : query.unplaced = query'.unplaced) (s : State) :
    Matching Eq ((evaluateSelect env query).runFrom s).1 ((evaluateSelect env query').runFrom s).1 ∧
      ((evaluateSelect env query).runFrom s).2 = ((evaluateSelect env query').runFrom s).2 := by
  have hleft := (placeless_steps env).query query s
  have hright := (placeless_steps env).query query' s
  rw [← h] at hright
  exact ⟨hleft.1.trans hright.1.symm, hleft.2.trans hright.2.symm⟩

end TableQuery
