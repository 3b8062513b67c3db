import TableQuery.Proofs.Evaluation.Same
import TableQuery.Proofs.Query.Replacement

/-! # Replacing columns and nested queries

A query depends on its columns and on the queries nested in it through its tasks alone. If others
are put in their places, and each of them has the outcome of the one that it replaces wherever the
query evaluates that one, then the whole query does what it did before. -/

namespace TableQuery

open Eval

/-- In the state, the replacement has the outcome of what the task evaluates. Without a row, only
the text of a column is seen. -/
def Replacement.Suits (ρ : Replacement) (env : Environment) : Task → State → Prop
  | .value (.column ref) context, _ => context.row = none → (ρ.column ref).shown = ref.shown
  | .value _ _, _ => True
  | .column ref row, t => t.scope.resolve (ρ.column ref) row = t.scope.resolve ref row
  | .table inner, t =>
    (evaluateSelect env (ρ.query inner)).runFrom t = (evaluateSelect env inner).runFrom t

/-! ## Expressions -/

/-- The replaced expression does what the expression does. -/
def Replacement.SameValue (ρ : Replacement) (env : Environment) (t : State) (context : Context)
    (expr : Expr) : Prop :=
  Same t (evaluate env (expr.replace ρ) context) (evaluate env expr context)

namespace Replacement

variable {ρ : Replacement} {env : Environment} {s t : State} {context : Context}

theorem same_condition {expr : Expr} (h : ρ.SameValue env t context expr) :
    Same t (Clause.condition (evaluate env (expr.replace ρ)) context)
      (Clause.condition (evaluate env expr) context) :=
  Same.bind h fun _ => .ofExcept _

theorem same_connective {left right : Expr} (op : Connective)
    (hl : ρ.SameValue env t context left) (hr : ρ.SameValue env t context right) :
    Same t
      (Meaning.connective op (evaluate env (left.replace ρ)) (evaluate env (right.replace ρ))
        context)
      (Meaning.connective op (evaluate env left) (evaluate env right) context) := by
  refine Same.bind hl fun a => Same.bind (.ofExcept _) fun truth => ?_
  split
  · exact .pure _
  · exact Same.bind hr fun b => Same.bind (.ofExcept _) fun _ => .pure _

theorem same_firstHolding {otherwise : Option Expr}
    (ho : ∀ expr, otherwise = some expr → ρ.SameValue env t context expr) :
    ∀ {whens thens : List Expr}, (∀ expr ∈ whens, ρ.SameValue env t context expr) →
      (∀ expr ∈ thens, ρ.SameValue env t context expr) →
      Same t
        (Meaning.firstHolding ((otherwise.map (Expr.replace ρ)).map (evaluate env))
          ((whens.map (Expr.replace ρ)).map (evaluate env))
          ((thens.map (Expr.replace ρ)).map (evaluate env)) context)
        (Meaning.firstHolding (otherwise.map (evaluate env)) (whens.map (evaluate env))
          (thens.map (evaluate env)) context)
  | condition :: whens, result :: thens, hw, ht => by
    refine Same.bind (same_condition (hw condition List.mem_cons_self)) fun holds => ?_
    split
    · exact ht result List.mem_cons_self
    · exact same_firstHolding ho (fun expr hm => hw expr (List.mem_cons_of_mem _ hm))
        fun expr hm => ht expr (List.mem_cons_of_mem _ hm)
  | [], _, _, _ | _ :: _, [], _, _ => by
    cases otherwise with
    | none => exact .pure _
    | some expr => exact ho expr rfl

theorem same_scalar {query query' : Eval Table} (h : Same t query' query) :
    Same t (Meaning.scalar query') (Meaning.scalar query) := by
  refine Same.bind h fun table => Same.bind (.ofExcept _) fun _ => ?_
  split
  · exact .pure _
  · exact .pure _
  · exact .throw _

theorem same_column_values {query query' : Eval Table} (h : Same t query' query) :
    Same t (Meaning.column query') (Meaning.column query) :=
  Same.bind h fun _ => Same.bind (.ofExcept _) fun _ => .pure _

theorem same_inGroupSource {α : Type} {act act' : Eval α} (h : Same t.inSource act' act) :
    Same t act'.inGroupSource act.inGroupSource where
  run u hu := runFrom_inGroupSource_congr (h.run u.inSource hu.inSource)
  restores := restores_inGroupSource h.restores

theorem same_aggregate {args : List Expr} (name : String) (star : Bool)
    (h : ∀ rows, context.group = some rows → ∀ arg ∈ args, ∀ row ∈ rows,
      ρ.SameValue env t.inSource (.ofRow row) arg) :
    Same t
      (Meaning.aggregate env name ((args.map (Expr.replace ρ)).map (evaluate env)) star context)
      (Meaning.aggregate env name (args.map (evaluate env)) star context) := by
  unfold Meaning.aggregate
  cases hg : context.group with
  | none => exact .throw _
  | some rows =>
    simp only [List.length_map]
    refine Same.bind (.ofExcept _) fun function => ?_
    cases star with
    | true => exact .ofExcept _
    | false =>
      cases args with
      | nil => exact .ofExcept _
      | cons arg rest =>
        refine Same.bind (same_inGroupSource (.mapM fun row hr => ?_)) fun _ => .ofExcept _
        exact h rows hg arg List.mem_cons_self row hr

theorem same_call {args : List Expr} (pos : Position) (name : Option String) (star : Bool)
    (h : ∀ arg ∈ args, ρ.SameValue env t context arg)
    (hg : ∀ rows, context.group = some rows → ∀ arg ∈ args, ∀ row ∈ rows,
      ρ.SameValue env t.inSource (.ofRow row) arg) :
    Same t
      (Meaning.call env pos name ((args.map (Expr.replace ρ)).map (evaluate env)) star context)
      (Meaning.call env pos name (args.map (evaluate env)) star context) := by
  cases name with
  | none => exact .throw _
  | some name =>
    simp only [Meaning.call]
    split
    · exact same_aggregate name star hg
    · simp only [List.mapM_map]
      exact Same.bind (.mapM h) fun _ => .ofExcept _

theorem same_items : ∀ {items : List Expr}, (∀ item ∈ items, ρ.SameValue env t context item) →
    (∀ query, .subquery query ∈ items →
      Same t (evaluateSelect env (ρ.query query)) (evaluateSelect env query)) →
    Same t (evaluateItems env (items.map (Expr.replace ρ)) context)
      (evaluateItems env items context)
  | [], _, _ => .pure _
  | item :: rest, hi, hq => by
    have hr := same_items (fun i hm => hi i (List.mem_cons_of_mem _ hm))
      (fun q hm => hq q (List.mem_cons_of_mem _ hm))
    have hh := hi item List.mem_cons_self
    cases item with
    | subquery query =>
      have hs := same_column_values (hq query List.mem_cons_self)
      exact Same.bind hs fun _ => Same.bind hr fun _ => .pure _
    | _ => exact Same.bind hh fun _ => Same.bind hr fun _ => .pure _

/-- Wherever the query evaluates the expression, the replaced one does the same. -/
def Keeps (ρ : Replacement) (env : Environment) (query : Select) (s : State) (expr : Expr) : Prop :=
  ∀ place items context t,
    (∀ u, t.Restored u → query.Evaluates env s place items (.value expr context) u) →
      ρ.SameValue env t context expr

variable {query : Select}

theorem Keeps.part {place : Place} {items : Frame} {expr part : Expr}
    (h : ρ.Keeps env query s part)
    (he : ∀ u, t.Restored u → query.Evaluates env s place items (.value expr context) u)
    (hp : part ∈ expr.operands) : ρ.SameValue env t context part :=
  h place items context t fun _ hu => .operand (he t (.refl t)) hp hu

theorem keeps_steps
    (hρ : ∀ place items task t, query.Evaluates env s place items task t → ρ.Suits env task t) :
    TreeSteps (ρ.Keeps env query s) fun _ => True where
  literal _ v _ _ _ _ _ := by
    simp only [SameValue, Expr.replace, evaluate]
    exact .pure v
  column ref place items context t he := by
    unfold SameValue
    simp only [Expr.replace, evaluate]
    cases hr : context.row with
    | none =>
      have hshown := hρ _ _ _ _ (he t (.refl t)) hr
      rw [hshown]
      exact .throw _
    | some row =>
      refine ⟨fun u hu => ?_, fun u => .refl u⟩
      have hresolve := hρ _ _ _ _ (.column (he u hu) hr)
      rw [runFrom_reading, runFrom_reading]
      exact congrArg (fun found => ((·.2) <$> found, u)) hresolve
  binary pos op left right hl hr place items context t he := by
    simp only [SameValue, Expr.replace, evaluate]
    exact Same.bind (hl.part he (by simp [Expr.operands])) fun a =>
      Same.bind (hr.part he (by simp [Expr.operands])) fun b => .ofExcept _
  logical pos op left right hl hr place items context t he := by
    simp only [SameValue, Expr.replace, evaluate]
    exact same_connective op (hl.part he (by simp [Expr.operands]))
      (hr.part he (by simp [Expr.operands]))
  not pos operand ho place items context t he := by
    simp only [SameValue, Expr.replace, evaluate]
    exact Same.bind (ho.part he (by simp [Expr.operands])) fun _ => .ofExcept _
  negate pos operand ho place items context t he := by
    simp only [SameValue, Expr.replace, evaluate]
    exact Same.bind (ho.part he (by simp [Expr.operands])) fun _ => .ofExcept _
  between pos value low high hv hl hh place items context t he := by
    simp only [SameValue, Expr.replace, evaluate]
    exact Same.bind (hv.part he (by simp [Expr.operands])) fun v =>
      Same.bind (hl.part he (by simp [Expr.operands])) fun a =>
        Same.bind (hh.part he (by simp [Expr.operands])) fun b => .ofExcept _
  member pos value items hv hi _ place frame context t he := by
    have hparts := fun item (hm : item ∈ items) =>
      (hi item hm).part he (List.mem_cons_of_mem value hm)
    simp only [SameValue, Expr.replace, evaluate, replaceEach_eq]
    refine Same.bind (hv.part he List.mem_cons_self) fun v =>
      Same.bind (same_items hparts fun inner hm => ?_) fun vs => .pure _
    refine ⟨fun u hu => ?_, evaluateSelect_moves_restored env inner⟩
    have hvalue := Select.Evaluates.operand (he t (.refl t)) (List.mem_cons_of_mem value hm) hu
    exact hρ _ _ _ _ (.table hvalue rfl (.refl u))
  like pos value pattern ignoreCase hv hp place items context t he := by
    simp only [SameValue, Expr.replace, evaluate]
    exact Same.bind (hv.part he (by simp [Expr.operands])) fun v =>
      Same.bind (hp.part he (by simp [Expr.operands])) fun p => .ofExcept _
  isNull pos operand ho place items context t he := by
    simp only [SameValue, Expr.replace, evaluate]
    exact Same.bind (ho.part he (by simp [Expr.operands])) fun _ => .pure _
  case pos whens thens otherwise hw ht ho place items context t he := by
    simp only [SameValue, Expr.replace, evaluate, replaceEach_eq, replaceOption_eq,
      evaluateEach_eq, evaluateOption_eq, List.length_map]
    split
    · exact .throw _
    · refine same_firstHolding (fun expr hm => ?_) (fun expr hm => ?_) fun expr hm => ?_
      · exact (ho expr hm).part he (by simp [Expr.operands, hm])
      · exact (hw expr hm).part he (by simp [Expr.operands, hm])
      · exact (ht expr hm).part he (by simp [Expr.operands, hm])
  call pos callee args star ha place items context t he := by
    simp only [SameValue, Expr.replace, evaluate, replaceEach_eq, evaluateEach_eq]
    refine same_call pos _ star (fun arg hm => (ha arg hm).part he hm) ?_
    intro rows hg arg hm row hr
    refine ha arg hm .argument items (.ofRow row) t.inSource fun v hv => ?_
    obtain ⟨u, hu, rfl⟩ := hv.of_inSource
    exact .argument (he t (.refl t)) hm hg hr hu
  group pos inner hi place items context t he := by
    simp only [SameValue, Expr.replace, evaluate]
    exact hi.part he (by simp [Expr.operands])
  existence pos inner _ place items context t he := by
    simp only [SameValue, Expr.replace, evaluate]
    refine Same.bind ⟨fun u hu => ?_, evaluateSelect_moves_restored env inner⟩ fun _ => .pure _
    exact hρ _ _ _ _ (.table (he u hu) rfl (.refl u))
  subquery inner _ place items context t he := by
    simp only [SameValue, Expr.replace, evaluate]
    refine same_scalar ⟨fun u hu => ?_, evaluateSelect_moves_restored env inner⟩
    exact hρ _ _ _ _ (.table (he u hu) rfl (.refl u))
  select _ _ := trivial

/-! ## Clauses -/

variable {columns : List SelectColumn}

theorem same_joinRows {condition : Expr} (left : Bool) (right : Table) :
    ∀ {rows : List Row},
      (∀ l ∈ rows, ∀ r ∈ right.rows, ρ.SameValue env t (.ofRow (l.join r)) condition) →
      Same t
        (Table.joinRows left right
          (fun row => Clause.condition (evaluate env (condition.replace ρ)) (.ofRow row)) rows)
        (Table.joinRows left right
          (fun row => Clause.condition (evaluate env condition) (.ofRow row)) rows)
  | [], _ => .pure _
  | l :: _, h => by
    refine Same.bind (.keepM fun row hm => ?_) fun found => Same.bind ?_ fun more => .pure _
    · obtain ⟨r, hr, rfl⟩ := List.mem_map.mp hm
      exact same_condition (h l List.mem_cons_self r hr)
    · exact same_joinRows left right fun l' hl => h l' (List.mem_cons_of_mem _ hl)

theorem same_filter {filter : Option Expr} (table : Table)
    (h : ∀ expr, filter = some expr → ∀ row ∈ table.rows, ρ.SameValue env t (.ofRow row) expr) :
    Same t (Clause.filter ((filter.map (Expr.replace ρ)).map (evaluate env)) table)
      (Clause.filter (filter.map (evaluate env)) table) := by
  cases filter with
  | none => exact .pure _
  | some expr =>
    exact Same.bind (.keepM fun row hr => same_condition (h expr rfl row hr)) fun _ => .pure _

theorem same_rowValues (h : ∀ column ∈ columns, ρ.SameValue env t context column.expr) :
    Same t
      (Clause.rowValues
        ((columns.map (SelectColumn.replace ρ)).map fun column => evaluate env column.expr) context)
      (Clause.rowValues (columns.map fun column => evaluate env column.expr) context) := by
  simp only [Clause.rowValues, List.mapM_map]
  exact .mapM h

theorem same_groupTable (name : String) (fields : List String) (groups : List Group)
    (h : ∀ column ∈ columns, ∀ group ∈ groups,
      ρ.SameValue env t (.ofGroup group.keyRow group.rows) column.expr) :
    Same t
      (Clause.groupTable name fields
        ((columns.map (SelectColumn.replace ρ)).map fun column => evaluate env column.expr) groups)
      (Clause.groupTable name fields (columns.map fun column => evaluate env column.expr)
        groups) := by
  refine Same.bind (.mapM fun group hg => ?_) fun _ => .pure _
  simp only [Clause.groupRow, List.mapM_map]
  refine Same.bind (.mapM fun column hc => ?_) fun _ => .ofExcept _
  exact (h column hc group hg).mapError _

theorem same_rowCount {count : Expr} (clause : SliceClause) (h : ρ.SameValue env t .none count) :
    Same t (Clause.rowCount clause (evaluate env (count.replace ρ)))
      (Clause.rowCount clause (evaluate env count)) := by
  refine Same.bind (h.mapError _) fun v => ?_
  split
  · exact .pure _
  · exact .throw _

theorem same_offset {offset : Option Expr} (table : Table)
    (h : ∀ expr, offset = some expr → ρ.SameValue env t .none expr) :
    Same t (Clause.offset ((offset.map (Expr.replace ρ)).map (evaluate env)) table)
      (Clause.offset (offset.map (evaluate env)) table) := by
  cases offset with
  | none => exact .pure _
  | some expr => exact Same.bind (same_rowCount .offset (h expr rfl)) fun _ => .pure _

theorem same_limit {limit : Option Expr} (table : Table)
    (h : ∀ expr, limit = some expr → ρ.SameValue env t .none expr) :
    Same t (Clause.limit ((limit.map (Expr.replace ρ)).map (evaluate env)) table)
      (Clause.limit (limit.map (evaluate env)) table) := by
  cases limit with
  | none => exact .pure _
  | some expr => exact Same.bind (same_rowCount .limit (h expr rfl)) fun _ => .pure _

theorem single_replace (fields : List String)
    (h : ∀ column ∈ columns, ρ.SameValue env t .none column.expr) :
    (Clause.single fields
      ((columns.map (SelectColumn.replace ρ)).map fun column => evaluate env column.expr)).runFrom
        t =
      (Clause.single fields (columns.map fun column => evaluate env column.expr)).runFrom t :=
  runFrom_bind_congr ((same_rowValues h).run t (.refl t)) fun _ _ _ => rfl

theorem project_replace (fields : List String) (table : Table)
    (h : ∀ column ∈ columns, ∀ row ∈ table.rows, ρ.SameValue env t (.ofRow row) column.expr) :
    (Clause.project fields
      ((columns.map (SelectColumn.replace ρ)).map fun column => evaluate env column.expr)
        table).runFrom t =
      (Clause.project fields (columns.map fun column => evaluate env column.expr)
        table).runFrom t := by
  refine runFrom_bind_congr (runFrom_bind_congr ?_ fun _ _ _ => rfl) fun _ _ _ => rfl
  refine (Same.mapM fun row hr => ?_).run t (.refl t)
  refine Same.bind (same_rowValues fun column hc => h column hc row hr) fun values => ?_
  split
  · exact .pure _
  · exact .throw _

/-- The keys are columns of the table's rows. -/
theorem groups_replace (functions : Registry) (keys : List Expr) (table : Table)
    (h : ∀ key, .column key ∈ keys → ∀ row ∈ table.rows,
      t.scope.resolve (ρ.column key) row = t.scope.resolve key row) :
    (Clause.groups functions (keys.map (Expr.replace ρ)) (columns.map (SelectColumn.replace ρ))
      table).runFrom t = (Clause.groups functions keys columns table).runFrom t := by
  unfold Clause.groups
  rw [runFrom_reading, runFrom_reading, Clause.groupColumns_replace, Clause.checkGroupable_replace]
  cases hk : Clause.groupColumns keys with
  | error e => rfl
  | ok refs =>
    have hrefs : ∀ ref ∈ refs, Expr.column ref ∈ keys := fun ref hm =>
      Clause.mem_of_groupColumns hk hm
    refine congrArg (·, t) ?_
    show (Clause.checkGroupable functions columns >>= fun _ => groupRows _ _ _) =
      (Clause.checkGroupable functions columns >>= fun _ => groupRows _ _ _)
    refine congrArg (Clause.checkGroupable functions columns >>= ·) (funext fun _ => ?_)
    refine groupRows_congr_of_mem fun row hr => ?_
    rw [List.mapM_map]
    exact mapM_congr_of_mem fun ref hm => h ref (hrefs ref hm) row hr

theorem order_replace (keys : List OrderKey) (table : Table)
    (h : ∀ key ∈ keys, ∀ row ∈ table.rows,
      t.scope.resolve (ρ.column key.column) row = t.scope.resolve key.column row) :
    (Clause.order (keys.map (OrderKey.replace ρ)) table).runFrom t =
      (Clause.order keys table).runFrom t := by
  unfold Clause.order
  rw [List.isEmpty_map]
  split
  · rfl
  · rw [runFrom_reading, runFrom_reading, List.map_map]
    refine congrArg (·, t) (Table.sort_congr_of_mem fun row hr => ?_)
    rw [List.mapM_map]
    exact mapM_congr_of_mem fun key hk => congrArg (Prod.snd <$> ·) (h key hk row hr)

theorem having_replace {condition : Option Expr} (groups : List Group) (table : Table)
    (h : ∀ expr, condition = some expr → ∀ row group, (row, group) ∈ table.rows.zip groups →
      ρ.SameValue env (t.overProjection table) (.ofGroup row group.rows) expr) :
    (Clause.having ((condition.map (Expr.replace ρ)).map (evaluate env)) groups table).runFrom t =
      (Clause.having (condition.map (evaluate env)) groups table).runFrom t := by
  cases condition with
  | none => rfl
  | some expr => exact Clause.having_congr (h expr rfl)

end Replacement

/-! ## Queries -/

theorem Eval.Returns.joined_snoc {source : Eval Table} {joins : List (Table → Eval Table)}
    {join : Table → Eval Table} {left next : Table} {s u v : State}
    (hl : Returns (Pipeline.joined source joins) s left u) (hn : Returns (join left) u next v) :
    Returns (Pipeline.joined source (joins ++ [join])) s next v := by
  obtain ⟨first, w, hf, hl⟩ := Returns.bind hl
  unfold Returns Pipeline.joined
  rw [runFrom_bind_ok hf, List.foldlM_append, runFrom_bind_ok hl, List.foldlM_cons,
    runFrom_bind_ok hn]
  rfl

namespace Replacement

variable {ρ : Replacement} {env : Environment} {query : Select} {s u : State}

theorem tableRef_replace {ref : TableRef} (joined : Bool)
    (h : ∀ inner, ref.source = .subquery inner →
      (evaluateSelect env (ρ.query inner)).runFrom u = (evaluateSelect env inner).runFrom u) :
    (evaluateTableRef env joined (ref.replace ρ)).runFrom u =
      (evaluateTableRef env joined ref).runFrom u := by
  obtain ⟨pos, source, label⟩ := ref
  cases source with
  | table name => rfl
  | subquery inner =>
    rw [evaluateTableRef_eq, evaluateTableRef_eq]
    refine runFrom_bind_congr ?_ fun _ _ _ => rfl
    cases label with
    | none => rfl
    | some label =>
      refine runFrom_bind_congr rfl fun _ v hv => ?_
      obtain ⟨-, rfl⟩ := Returns.reading hv
      exact runFrom_bind_congr (h inner rfl) fun _ _ _ => rfl

variable (hρ : ∀ place items task t, query.Evaluates env s place items task t → ρ.Suits env task t)
include hρ

theorem keeps (expr : Expr) : ρ.Keeps env query s expr := (keeps_steps hρ).expr expr

variable {ref : TableRef} (hs : query.source = some ref)
include hs

theorem join_replace {before after : List Join} {join : Join} {left : Table}
    (hj : query.joins = before ++ join :: after)
    (hl : Returns (Pipeline.joined (evaluateTableRef env false ref)
      (before.map (evaluateJoin env))) s.opened left u) :
    (evaluateJoin env (join.replace ρ) left).runFrom u =
      (evaluateJoin env join left).runFrom u := by
  have hreplace : evaluateJoin env (join.replace ρ) left =
      Clause.join join.pos join.kind (evaluateTableRef env true (join.table.replace ρ))
        ((join.condition.map (Expr.replace ρ)).map (evaluate env)) left :=
    evaluateJoin_eq env (join.replace ρ) left
  rw [hreplace, evaluateJoin_eq]
  unfold Clause.join
  by_cases hk : join.kind = .right ∨ join.kind = .full
  · rw [if_pos hk, if_pos hk]
  · rw [if_neg hk, if_neg hk]
    refine runFrom_bind_congr (tableRef_replace true fun inner hi => ?_) fun right v hr => ?_
    · exact hρ _ _ _ _ (.joinDerived hs hj hl hi (.refl u))
    · by_cases hc : join.kind = .cross
      · rw [if_pos hc, if_pos hc]
      · rw [if_neg hc, if_neg hc]
        cases hon : join.condition with
        | none => rfl
        | some condition =>
          refine runFrom_bind_congr ((same_joinRows _ _ fun l hl' r hr' => ?_).run v (.refl v))
            fun _ _ _ => rfl
          exact keeps hρ condition _ _ _ v fun w hw => .on hs hj hl hr hon hl' hr' hw

theorem joins_replace : ∀ {before after : List Join} {left : Table} {u : State},
    query.joins = before ++ after →
    Returns (Pipeline.joined (evaluateTableRef env false ref) (before.map (evaluateJoin env)))
      s.opened left u →
    (((after.map (Join.replace ρ)).map (evaluateJoin env)).foldlM
      (fun (left : Table) (join : Table → Eval Table) => join left) left).runFrom u =
      ((after.map (evaluateJoin env)).foldlM
        (fun (left : Table) (join : Table → Eval Table) => join left) left).runFrom u
  | _, [], _, _, _, _ => rfl
  | before, join :: after, left, u, hj, hl => by
    simp only [List.map_cons, List.foldlM_cons]
    refine runFrom_bind_congr (join_replace hρ hs hj hl) fun next v hn => ?_
    have hj' : query.joins = (before ++ [join]) ++ after := by
      rw [hj, List.append_assoc]
      rfl
    refine joins_replace hj' ?_
    rw [List.map_append]
    exact hl.joined_snoc hn

theorem joined_replace :
    (Pipeline.joined (evaluateTableRef env false (ref.replace ρ))
      ((query.replace ρ).parts env).joins).runFrom s.opened =
      (Pipeline.joined (evaluateTableRef env false ref) (query.parts env).joins).runFrom
        s.opened := by
  refine runFrom_bind_congr (tableRef_replace false fun inner hi => ?_) fun left u hl => ?_
  · exact hρ _ _ _ _ (.derived hs hi (.refl _))
  · refine joins_replace hρ hs (List.nil_append _).symm ?_
    exact runFrom_bind_ok hl

theorem filtered_replace :
    (((query.replace ρ).parts env).filtered
      (evaluateTableRef env false (ref.replace ρ))).runFrom s.opened =
      ((query.parts env).filtered (evaluateTableRef env false ref)).runFrom s.opened := by
  refine runFrom_bind_congr (joined_replace hρ hs) fun table u hj => ?_
  refine (same_filter table fun expr hf row hr => ?_).run u (.refl u)
  exact keeps hρ expr _ _ _ u fun v hv => .filter hs hj hf hr hv

theorem selected_replace :
    (((query.replace ρ).parts env).selected env (query.replace ρ)
      (evaluateTableRef env false (ref.replace ρ))).runFrom s.opened =
      ((query.parts env).selected env query (evaluateTableRef env false ref)).runFrom
        s.opened := by
  refine runFrom_bind_congr (filtered_replace hρ hs) fun table u hf => ?_
  show (if (query.groupBy.map (Expr.replace ρ)).isEmpty then
      Clause.project (Clause.outputNames (query.columns.map (SelectColumn.replace ρ))) _ table
    else Clause.group env (query.groupBy.map (Expr.replace ρ))
      (query.columns.map (SelectColumn.replace ρ)) _ _ table).runFrom u = _
  rw [List.isEmpty_map, Clause.outputNames_replace]
  split
  · next hg =>
    refine project_replace _ table fun column hc row hr => ?_
    exact keeps hρ column.expr _ _ _ u fun v hv => .list hs hf (List.isEmpty_iff.mp hg) hc hr hv
  · unfold Clause.group
    refine runFrom_bind_congr (groups_replace _ _ table fun key hk row hr => ?_)
      fun groups v hg => ?_
    · exact hρ _ _ _ _ (.key hs hf hk hr)
    · rw [Clause.outputNames_replace]
      refine runFrom_bind_congr ((same_groupTable _ _ groups fun column hc group hm => ?_).run v
        (.refl v)) fun projected w hp => having_replace groups projected ?_
      · exact keeps hρ column.expr _ _ _ v fun x hx => .groupList hs hf hg hc hm hx
      · intro expr hc row group hm
        exact keeps hρ expr _ _ _ _ fun x hx => .having hs hf hg hp hc hm hx

theorem ordered_replace :
    (((query.replace ρ).parts env).ordered env (query.replace ρ)
      (evaluateTableRef env false (ref.replace ρ))).runFrom s.opened =
      ((query.parts env).ordered env query (evaluateTableRef env false ref)).runFrom s.opened := by
  refine runFrom_bind_congr (selected_replace hρ hs) fun result t hr => ?_
  show (if (query.orderBy.map (OrderKey.replace ρ)).isEmpty then pure result
    else Clause.order (query.orderBy.map (OrderKey.replace ρ)) result).runFrom t = _
  rw [List.isEmpty_map]
  split
  · rfl
  · obtain ⟨table, u, hf, -⟩ := selected_returns hr
    refine order_replace _ result fun key hk row hm => ?_
    exact hρ _ _ _ _ (.order hs hf hr hk hm)

theorem skipped_replace :
    (((query.replace ρ).parts env).skipped env (query.replace ρ)
      (evaluateTableRef env false (ref.replace ρ))).runFrom s.opened =
      ((query.parts env).skipped env query (evaluateTableRef env false ref)).runFrom s.opened := by
  refine runFrom_bind_congr (ordered_replace hρ hs) fun result t hr => ?_
  obtain ⟨selected, hselected⟩ := ordered_returns hr
  obtain ⟨table, u, hf, -⟩ := selected_returns hselected
  refine (same_offset result fun expr ho => ?_).run t (.refl t)
  exact keeps hρ expr _ _ _ t fun v hv => .offset hs hf hr ho hv

omit hs in
/-- Where replacements have the outcome of what the query evaluates, the query with them does what
it did without. -/
theorem evaluateSelect_replace :
    (evaluateSelect env (query.replace ρ)).runFrom s = (evaluateSelect env query).runFrom s := by
  rw [evaluateSelect_eq, evaluateSelect_eq]
  refine runFrom_inChildScope_congr ?_
  cases hstar : query.star with
  | true =>
    have hstar' : (query.replace ρ).star = true := hstar
    rw [Select.pipeline_star hstar, Select.pipeline_star hstar']
  | false =>
    have hstar' : (query.replace ρ).star = false := hstar
    cases hs : query.source with
    | none =>
      have hs' : (query.replace ρ).source = none := congrArg (Option.map _) hs
      rw [Select.pipeline_single hstar hs, Select.pipeline_single hstar' hs']
      have hnames : Clause.outputNames (query.replace ρ).columns =
          Clause.outputNames query.columns := Clause.outputNames_replace ρ query.columns
      rw [hnames]
      show (Clause.single _ ((query.columns.map (SelectColumn.replace ρ)).map fun column =>
        evaluate env column.expr)).runFrom s.opened = _
      refine single_replace _ fun column hc => ?_
      exact keeps hρ column.expr _ _ _ s.opened fun v hv => .single hs hc hv
    | some ref =>
      have hs' : (query.replace ρ).source = some (ref.replace ρ) := congrArg (Option.map _) hs
      rw [Select.pipeline_from hstar hs, Select.pipeline_from hstar' hs']
      have hhaving : ((query.replace ρ).having.isSome && (query.replace ρ).groupBy.isEmpty) =
          (query.having.isSome && query.groupBy.isEmpty) := by
        simp [Select.replace]
      rw [hhaving]
      split
      · rfl
      · refine runFrom_bind_congr (skipped_replace hρ hs) fun result t hr => ?_
        obtain ⟨ordered, v, ho, -⟩ := skipped_returns hr
        obtain ⟨selected, hselected⟩ := ordered_returns ho
        obtain ⟨table, u, hf, -⟩ := selected_returns hselected
        refine (same_limit result fun expr hl => ?_).run t (.refl t)
        exact keeps hρ expr _ _ _ t fun w hw => .limit hs hf hr hl hw

end Replacement

end TableQuery
