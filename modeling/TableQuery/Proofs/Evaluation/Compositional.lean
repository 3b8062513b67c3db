import TableQuery.Proofs.Evaluation.Loop
import TableQuery.Proofs.Evaluation.Parts
import TableQuery.Proofs.Query.Parts

/-! # Compositional properties of evaluations

A property of evaluations is compositional when a whole has it as soon as its parts do. Such a
property comes in two strengths: `outer` is for expressions, which have to leave the frames alone,
and `inner` for what a query does in its own frame. Every query has a compositional property
(`pipeline_inner`), provided that the names it mentions are fit for it; a property with the two
strengths and the few primitive evaluations is all that has to be supplied. -/

namespace TableQuery

/-- Two scopes that fit mentions cannot tell apart. -/
structure Scope.Indistinct (fits : Mention → Prop) (scope scope' : Scope) : Prop where
  resolve : ∀ ref, fits (.column ref) → scope.resolve ref = scope'.resolve ref
  find? : ∀ name label, fits (.item (some name) label) → scope.find? name = scope'.find? name
  tableName? : ∀ source label, fits (.item source (some label)) →
    (scope.tableName? label).isSome = (scope'.tableName? label).isSome
  innermost : ∀ label, fits (.item none (some label)) →
    (scope.innermost.table? label).isSome = (scope'.innermost.table? label).isSome

/-- The columns that a query groups by stand among its keys. -/
theorem Clause.mem_of_groupColumns {keys : List Expr} {refs : List ColumnRef}
    (h : groupColumns keys = .ok refs) {ref : ColumnRef} (hm : ref ∈ refs) :
    Expr.column ref ∈ keys := by
  obtain ⟨key, hk, he⟩ := exists_mem_of_mapM h ref hm
  cases key with
  | column first => cases he; exact hk
  | _ => cases he

structure Compositional (env : Environment) (fits : Mention → Prop) where
  /-- Evaluations of expressions have the property in this strength. -/
  outer : ∀ {α : Type}, Eval α → Prop
  /-- The clauses of a query have it in this one. -/
  inner : ∀ {α : Type}, Eval α → Prop
  inner_of_outer : ∀ {α : Type} {act : Eval α}, outer act → inner act
  outer_ofExcept : ∀ {α : Type} (outcome : Except QueryError α), outer (Eval.ofExcept outcome)
  outer_bind : ∀ {α β : Type} {act : Eval α} {next : α → Eval β},
    outer act → (∀ a, outer (next a)) → outer (act >>= next)
  inner_bind : ∀ {α β : Type} {act : Eval α} {next : α → Eval β},
    inner act → (∀ a, inner (next a)) → inner (act >>= next)
  outer_mapError : ∀ {α : Type} {act : Eval α} (reword : QueryError → QueryError),
    outer act → outer (act.mapError reword)
  outer_reading : ∀ {α : Type} (read : Scope → Except QueryError α),
    (∀ scope scope', Scope.Indistinct fits scope scope' → read scope = read scope') →
    outer (Eval.reading read)
  outer_inGroupSource : ∀ {α : Type} {act : Eval α}, outer act → outer act.inGroupSource
  outer_inChildScope : ∀ {α : Type} {act : Eval α}, inner act → outer act.inChildScope
  /-- A subquery without a label is bound nowhere. -/
  inner_bindTable : ∀ source label table, fits (.item source label) →
    (source = none → label ≠ none) → inner (Clause.bindTable env label table)
  inner_rebind : ∀ table, inner (Eval.onScope fun scope => scope.rebind table)
  inner_overProjection : ∀ {α : Type} {act : Eval α} (projected : Table),
    outer act → inner (act.overProjection projected)

namespace Compositional

variable {env : Environment} {fits : Mention → Prop} (C : Compositional env fits) {α β : Type}

/-! ## Loops -/

theorem outer_pure (a : α) : C.outer (pure a : Eval α) := C.outer_ofExcept (.ok a)

theorem outer_throw (e : QueryError) : C.outer (throw e : Eval α) := C.outer_ofExcept (.error e)

theorem inner_pure (a : α) : C.inner (pure a : Eval α) := C.inner_of_outer (C.outer_pure a)

theorem inner_throw (e : QueryError) : C.inner (throw e : Eval α) :=
  C.inner_of_outer (C.outer_throw e)

theorem outer_mapM {act : α → Eval β} (as : List α) (h : ∀ a ∈ as, C.outer (act a)) :
    C.outer (as.mapM act) := by
  induction as with
  | nil => rw [List.mapM_nil]; exact C.outer_pure _
  | cons a rest ih =>
    rw [List.mapM_cons]
    have ha := h a List.mem_cons_self
    have hr := ih fun b hb => h b (List.mem_cons_of_mem _ hb)
    exact C.outer_bind ha fun b => C.outer_bind hr fun bs => C.outer_pure _

theorem inner_foldlM {step : β → α → Eval β} (as : List α)
    (h : ∀ a ∈ as, ∀ b, C.inner (step b a)) : ∀ b, C.inner (as.foldlM step b) := by
  induction as with
  | nil => exact fun b => C.inner_pure b
  | cons a rest ih =>
    intro b
    rw [List.foldlM_cons]
    have hr := ih fun c hc => h c (List.mem_cons_of_mem _ hc)
    exact C.inner_bind (h a List.mem_cons_self b) hr

theorem outer_keepM {condition : α → Eval Bool} (as : List α)
    (h : ∀ a, C.outer (condition a)) : C.outer (keepM condition as) := by
  induction as with
  | nil => exact C.outer_pure _
  | cons a rest ih => exact C.outer_bind (h a) fun _ => C.outer_bind ih fun _ => C.outer_pure _

/-! ## Clauses -/

theorem outer_condition {meaning : Meaning} (h : ∀ context, C.outer (meaning context))
    (context : Context) : C.outer (Clause.condition meaning context) :=
  C.outer_bind (h context) fun _ => C.outer_ofExcept _

theorem outer_joinRows {condition : Row → Eval Bool} (left : Bool) (right : Table)
    (rows : List Row) (h : ∀ row, C.outer (condition row)) :
    C.outer (Table.joinRows left right condition rows) := by
  induction rows with
  | nil => exact C.outer_pure _
  | cons row rest ih =>
    exact C.outer_bind (C.outer_keepM _ h) fun _ => C.outer_bind ih fun _ => C.outer_pure _

theorem inner_join {right : Eval Table} {on : Option Meaning} (pos : Position) (kind : JoinKind)
    (left : Table) (hr : C.inner right)
    (ho : ∀ meaning, on = some meaning → ∀ context, C.outer (meaning context)) :
    C.inner (Clause.join pos kind right on left) := by
  unfold Clause.join
  split
  · exact C.inner_throw _
  · refine C.inner_bind hr fun table => ?_
    split
    · exact C.inner_pure _
    · cases on with
      | none => exact C.inner_throw _
      | some meaning =>
        have hc := C.outer_condition (ho meaning rfl)
        exact C.inner_of_outer
          (C.outer_bind (C.outer_joinRows _ _ _ fun row => hc (.ofRow row)) fun _ =>
            C.outer_pure _)

theorem outer_filter {filter : Option Meaning} (table : Table)
    (h : ∀ meaning, filter = some meaning → ∀ context, C.outer (meaning context)) :
    C.outer (Clause.filter filter table) := by
  cases filter with
  | none => exact C.outer_pure _
  | some meaning =>
    have hc := C.outer_condition (h meaning rfl)
    exact C.outer_bind (C.outer_keepM _ fun row => hc (.ofRow row)) fun _ => C.outer_pure _

theorem outer_rowValues {meanings : List Meaning}
    (h : ∀ meaning ∈ meanings, ∀ context, C.outer (meaning context)) (context : Context) :
    C.outer (Clause.rowValues meanings context) :=
  C.outer_mapM _ fun meaning hm => h meaning hm context

theorem outer_single {meanings : List Meaning} (fields : List String)
    (h : ∀ meaning ∈ meanings, ∀ context, C.outer (meaning context)) :
    C.outer (Clause.single fields meanings) :=
  C.outer_bind (C.outer_rowValues h .none) fun _ =>
    C.outer_bind (C.outer_ofExcept _) fun _ => C.outer_pure _

theorem inner_project {meanings : List Meaning} (fields : List String) (table : Table)
    (h : ∀ meaning ∈ meanings, ∀ context, C.outer (meaning context)) :
    C.inner (Clause.project fields meanings table) := by
  refine C.inner_bind (C.inner_of_outer ?_) fun projected =>
    C.inner_bind (C.inner_rebind projected) fun _ => C.inner_pure _
  refine C.outer_bind (C.outer_mapM _ fun row _ => ?_) fun _ => C.outer_pure _
  refine C.outer_bind (C.outer_rowValues h (.ofRow row)) fun values => ?_
  split
  · exact C.outer_pure _
  · exact C.outer_throw _

theorem outer_groupTable {meanings : List Meaning} (name : String) (fields : List String)
    (groups : List Group) (h : ∀ meaning ∈ meanings, ∀ context, C.outer (meaning context)) :
    C.outer (Clause.groupTable name fields meanings groups) := by
  refine C.outer_bind (C.outer_mapM _ fun group _ => ?_) fun _ => C.outer_pure _
  refine C.outer_bind (C.outer_mapM _ fun meaning hm => ?_) fun _ => C.outer_ofExcept _
  exact C.outer_mapError _ (h meaning hm _)

theorem inner_having {condition : Option Meaning} (groups : List Group) (table : Table)
    (h : ∀ meaning, condition = some meaning → ∀ context, C.outer (meaning context)) :
    C.inner (Clause.having condition groups table) := by
  cases condition with
  | none => exact C.inner_bind (C.inner_rebind table) fun _ => C.inner_pure _
  | some meaning =>
    have hc := C.outer_condition (h meaning rfl)
    refine C.inner_bind (C.inner_overProjection table ?_) fun kept =>
      C.inner_bind (C.inner_rebind _) fun _ => C.inner_pure _
    exact C.outer_keepM _ fun pair => hc (.ofGroup pair.1 pair.2.rows)

theorem outer_rowCount {meaning : Meaning} (clause : SliceClause)
    (h : ∀ context, C.outer (meaning context)) : C.outer (Clause.rowCount clause meaning) := by
  refine C.outer_bind (C.outer_mapError _ (h .none)) fun v => ?_
  split
  · exact C.outer_pure _
  · exact C.outer_throw _

theorem outer_offset {offset : Option Meaning} (table : Table)
    (h : ∀ meaning, offset = some meaning → ∀ context, C.outer (meaning context)) :
    C.outer (Clause.offset offset table) := by
  cases offset with
  | none => exact C.outer_pure _
  | some meaning => exact C.outer_bind (C.outer_rowCount _ (h meaning rfl)) fun _ => C.outer_pure _

theorem outer_limit {limit : Option Meaning} (table : Table)
    (h : ∀ meaning, limit = some meaning → ∀ context, C.outer (meaning context)) :
    C.outer (Clause.limit limit table) := by
  cases limit with
  | none => exact C.outer_pure _
  | some meaning => exact C.outer_bind (C.outer_rowCount _ (h meaning rfl)) fun _ => C.outer_pure _

/-! ## Clauses that look names up -/

theorem outer_boundTable {name : String} {label : Option String}
    (h : fits (.item (some name) label)) (joined : Bool) (pos : Position) :
    C.outer (Clause.boundTable joined pos name label) := by
  refine C.outer_reading _ fun scope scope' hi => ?_
  simp only [hi.find? name label h]

theorem inner_derivedTable {label : Option String} {query : Eval Table}
    (h : fits (.item none label)) (pos : Position) (hq : C.outer query) :
    C.inner (Clause.derivedTable pos label query) := by
  cases label with
  | none => exact C.inner_throw _
  | some label =>
    refine C.inner_of_outer (C.outer_bind (C.outer_reading _ fun scope scope' hi => ?_) fun _ =>
      C.outer_bind hq fun _ => C.outer_pure _)
    simp only [hi.innermost label h]

theorem outer_groups {keys : List Expr} (functions : Registry) (columns : List SelectColumn)
    (table : Table) (h : ∀ ref, .column ref ∈ keys → fits (.column ref)) :
    C.outer (Clause.groups functions keys columns table) := by
  refine C.outer_reading _ fun scope scope' hi => ?_
  cases hk : Clause.groupColumns keys with
  | error e => rfl
  | ok refs =>
    have hr : ∀ ref ∈ refs, scope.resolve ref = scope'.resolve ref := fun ref hm =>
      hi.resolve ref (h ref (Clause.mem_of_groupColumns hk hm))
    have hkeys : (fun row => refs.mapM fun ref => scope.resolve ref row) =
        fun row => refs.mapM fun ref => scope'.resolve ref row :=
      funext fun row => mapM_congr_of_mem fun ref hm => by rw [hr ref hm]
    exact congrArg (fun key => do
      Clause.checkGroupable functions columns
      groupRows table.name key table.rows) hkeys

theorem outer_order {keys : List OrderKey} (table : Table)
    (h : ∀ key ∈ keys, fits (.column key.column)) : C.outer (Clause.order keys table) := by
  unfold Clause.order
  split
  · exact C.outer_throw _
  · refine C.outer_reading _ fun scope scope' hi => ?_
    have hkeys : (fun row => keys.mapM fun key => (·.2) <$> scope.resolve key.column row) =
        fun row => keys.mapM fun key => (·.2) <$> scope'.resolve key.column row :=
      funext fun row => mapM_congr_of_mem fun key hm => by rw [hi.resolve _ (h key hm)]
    rw [hkeys]

/-! ## Expressions -/

/-- The property for the value of an expression in every context. -/
def OfExpr (expr : Expr) : Prop :=
  (∀ m ∈ expr.mentions, fits m) → ∀ context, C.outer (evaluate env expr context)

/-- The property for a nested query. -/
def OfQuery (query : Select) : Prop :=
  (∀ m ∈ query.mentions, fits m) → C.outer (evaluateSelect env query)

theorem outer_column {ref : ColumnRef} (h : fits (.column ref)) (context : Context) :
    C.outer (evaluate env (.column ref) context) := by
  simp only [evaluate]
  split
  · exact C.outer_throw _
  · refine C.outer_reading _ fun scope scope' hi => ?_
    rw [hi.resolve ref h]

theorem outer_connective {left right : Meaning} (op : Connective) (context : Context)
    (hl : C.outer (left context)) (hr : C.outer (right context)) :
    C.outer (Meaning.connective op left right context) := by
  refine C.outer_bind hl fun a => C.outer_bind (C.outer_ofExcept _) fun truth => ?_
  split
  · exact C.outer_pure _
  · exact C.outer_bind hr fun b => C.outer_bind (C.outer_ofExcept _) fun _ => C.outer_pure _

theorem outer_firstHolding {otherwise : Option Meaning}
    (ho : ∀ meaning, otherwise = some meaning → ∀ context, C.outer (meaning context))
    (context : Context) : ∀ {conditions results : List Meaning},
      (∀ meaning ∈ conditions, ∀ context, C.outer (meaning context)) →
      (∀ meaning ∈ results, ∀ context, C.outer (meaning context)) →
      C.outer (Meaning.firstHolding otherwise conditions results context)
  | condition :: conditions, result :: results, hc, hr => by
    have hcondition := C.outer_condition (hc condition List.mem_cons_self) context
    refine C.outer_bind hcondition fun holds => ?_
    split
    · exact hr result List.mem_cons_self context
    · exact outer_firstHolding ho context (fun m hm => hc m (List.mem_cons_of_mem _ hm))
        (fun m hm => hr m (List.mem_cons_of_mem _ hm))
  | [], _, _, _ | _ :: _, [], _, _ => by
    cases otherwise with
    | none => exact C.outer_pure _
    | some meaning => exact ho meaning rfl context

theorem outer_scalar {query : Eval Table} (h : C.outer query) : C.outer (Meaning.scalar query) := by
  refine C.outer_bind h fun table => C.outer_bind (C.outer_ofExcept _) fun _ => ?_
  split
  · exact C.outer_pure _
  · exact C.outer_pure _
  · exact C.outer_throw _

theorem outer_column_values {query : Eval Table} (h : C.outer query) :
    C.outer (Meaning.column query) :=
  C.outer_bind h fun _ => C.outer_bind (C.outer_ofExcept _) fun _ => C.outer_pure _

theorem outer_aggregate {args : List Meaning} (name : String) (star : Bool) (context : Context)
    (h : ∀ meaning ∈ args, ∀ context, C.outer (meaning context)) :
    C.outer (Meaning.aggregate env name args star context) := by
  unfold Meaning.aggregate
  split
  · exact C.outer_throw _
  · refine C.outer_bind (C.outer_ofExcept _) fun function => ?_
    split
    · exact C.outer_ofExcept _
    · next arg ha =>
      have hm : arg ∈ args := by
        cases star with
        | true => simp at ha
        | false => exact List.mem_of_mem_head? ha
      refine C.outer_bind (C.outer_inGroupSource ?_) fun _ => C.outer_ofExcept _
      exact C.outer_mapM _ fun row _ => h arg hm (.ofRow row)

theorem outer_call {args : List Meaning} (pos : Position) (name : Option String) (star : Bool)
    (context : Context) (h : ∀ meaning ∈ args, ∀ context, C.outer (meaning context)) :
    C.outer (Meaning.call env pos name args star context) := by
  cases name with
  | none => exact C.outer_throw _
  | some name =>
    simp only [Meaning.call]
    split
    · exact C.outer_aggregate name star context h
    · exact C.outer_bind (C.outer_mapM _ fun arg hm => h arg hm context) fun _ =>
        C.outer_ofExcept _

theorem outer_items {context : Context} : ∀ {items : List Expr},
    (∀ item ∈ items, C.outer (evaluate env item context)) →
    (∀ query, .subquery query ∈ items → C.outer (evaluateSelect env query)) →
    C.outer (evaluateItems env items context)
  | [], _, _ => C.outer_pure _
  | item :: rest, he, hq => by
    have hr := outer_items (fun i hi => he i (List.mem_cons_of_mem _ hi))
      (fun q hi => hq q (List.mem_cons_of_mem _ hi))
    have hh := he item List.mem_cons_self
    -- a subquery among the items is evaluated as a column of values and not as one value
    cases item with
    | subquery query =>
      have hs := C.outer_column_values (hq query List.mem_cons_self)
      exact C.outer_bind hs fun _ => C.outer_bind hr fun _ => C.outer_pure _
    | _ => exact C.outer_bind hh fun _ => C.outer_bind hr fun _ => C.outer_pure _

/-! ## Queries -/

theorem inner_tableRef {ref : TableRef} (joined : Bool) (hm : ∀ m ∈ ref.mentions, fits m)
    (hq : ∀ query, ref.source = .subquery query → C.OfQuery query) :
    C.inner (evaluateTableRef env joined ref) := by
  have hf : fits (.item ref.name? ref.label) := hm _ ref.mention_mem
  rw [evaluateTableRef_eq]
  obtain ⟨pos, source | query, label⟩ := ref
  · exact C.inner_bind (C.inner_of_outer (C.outer_boundTable hf joined pos)) fun table =>
      C.inner_bindTable _ label table hf nofun
  · have hs : C.outer (evaluateSelect env query) :=
      hq query rfl fun m hmq => hm m (TableRef.mem_mentions_of_subquery rfl hmq)
    cases label with
    | none => exact C.inner_throw _
    | some label =>
      exact C.inner_bind (C.inner_derivedTable hf pos hs) fun table =>
        C.inner_bindTable _ (some label) table hf nofun

/-- Meanings of a part of a query have the property if the mentions in it fit. -/
theorem outer_of_option {expr? : Option Expr} (h : ∀ expr, expr? = some expr → C.OfExpr expr)
    (hm : ∀ m ∈ optionMentions expr?, fits m) (meaning : Meaning)
    (he : expr?.map (evaluate env) = some meaning) (context : Context) :
    C.outer (meaning context) := by
  obtain ⟨expr, hs, rfl⟩ := Option.map_eq_some_iff.mp he
  exact h expr hs (fun m hx => hm m (mem_optionMentions.mpr ⟨expr, hs, hx⟩)) context

theorem outer_of_each {exprs : List Expr} (h : ∀ expr ∈ exprs, C.OfExpr expr)
    (hm : ∀ m ∈ eachMentions exprs, fits m) : ∀ meaning ∈ exprs.map (evaluate env), ∀ context,
      C.outer (meaning context) := by
  intro meaning hx
  obtain ⟨expr, he, rfl⟩ := List.mem_map.mp hx
  exact h expr he fun m hmx => hm m (mem_eachMentions.mpr ⟨expr, he, hmx⟩)

section

variable {query : Select} (h : query.PartsHold C.OfExpr C.OfQuery) (hm : query.PartsFit fits)
include h hm

theorem outer_columns : ∀ meaning ∈ (query.parts env).columns, ∀ context,
    C.outer (meaning context) := by
  intro meaning hx
  obtain ⟨column, hc, rfl⟩ := List.mem_map.mp hx
  exact h.columns column hc (hm.columns column hc)

theorem inner_joins : ∀ join ∈ (query.parts env).joins, ∀ left, C.inner (join left) := by
  intro join hx left
  obtain ⟨join, hj, rfl⟩ := List.mem_map.mp hx
  rw [evaluateJoin_eq]
  refine C.inner_join _ _ left ?_ ?_
  · exact C.inner_tableRef true (hm.joins join hj) (h.joins join hj)
  · exact C.outer_of_option (h.conditions join hj) (hm.conditions join hj)

variable {source : Eval Table} (hs : C.inner source)
include hs

theorem inner_filtered : C.inner ((query.parts env).filtered source) := by
  refine C.inner_bind (C.inner_bind hs ?_) fun table => C.inner_of_outer ?_
  · exact C.inner_foldlM _ (C.inner_joins h hm)
  · exact C.outer_filter table (C.outer_of_option h.filter hm.filter)

theorem inner_selected : C.inner ((query.parts env).selected env query source) := by
  refine C.inner_bind (C.inner_filtered h hm hs) fun table => ?_
  have hcolumns := C.outer_columns h hm
  split
  · exact C.inner_project _ table hcolumns
  · refine C.inner_bind (C.inner_of_outer ?_) fun groups =>
      C.inner_bind (C.inner_of_outer ?_) fun projected => ?_
    · exact C.outer_groups _ _ table hm.groupBy
    · exact C.outer_groupTable _ _ groups hcolumns
    · exact C.inner_having groups projected (C.outer_of_option h.having hm.having)

theorem inner_ordered : C.inner ((query.parts env).ordered env query source) := by
  refine C.inner_bind (C.inner_selected h hm hs) fun table => ?_
  split
  · exact C.inner_pure _
  · exact C.inner_of_outer (C.outer_order table hm.orderBy)

theorem inner_skipped : C.inner ((query.parts env).skipped env query source) := by
  refine C.inner_bind (C.inner_ordered h hm hs) fun table => C.inner_of_outer ?_
  exact C.outer_offset table (C.outer_of_option h.offset hm.offset)

omit hs in
theorem inner_pipeline : C.inner (query.pipeline env) := by
  cases hstar : query.star with
  | true =>
    rw [Select.pipeline_star hstar]
    exact C.inner_throw _
  | false =>
    cases hsource : query.source with
    | none =>
      rw [Select.pipeline_single hstar hsource]
      exact C.inner_of_outer (C.outer_single _ (C.outer_columns h hm))
    | some ref =>
      rw [Select.pipeline_from hstar hsource]
      split
      · exact C.inner_throw _
      · have href : C.inner (evaluateTableRef env false ref) :=
          C.inner_tableRef false (hm.source ref hsource) (h.source ref hsource)
        refine C.inner_bind (C.inner_skipped h hm href) fun table => C.inner_of_outer ?_
        exact C.outer_limit table (C.outer_of_option h.limit hm.limit)

end

/-! ## All expressions and queries -/

theorem steps : TreeSteps C.OfExpr C.OfQuery where
  literal _ v _ _ := by
    simp only [evaluate]
    exact C.outer_pure v
  column ref hm := C.outer_column (hm _ (by simp [Expr.mentions]))
  binary pos op left right hl hr hm context := by
    simp only [Expr.mentions, List.mem_append, or_imp, forall_and] at hm
    simp only [evaluate]
    exact C.outer_bind (hl hm.1 context) fun a => C.outer_bind (hr hm.2 context) fun b =>
      C.outer_ofExcept _
  logical pos op left right hl hr hm context := by
    simp only [Expr.mentions, List.mem_append, or_imp, forall_and] at hm
    simp only [evaluate]
    exact C.outer_connective op context (hl hm.1 context) (hr hm.2 context)
  not pos operand ho hm context := by
    simp only [evaluate]
    exact C.outer_bind (ho hm context) fun _ => C.outer_ofExcept _
  negate pos operand ho hm context := by
    simp only [evaluate]
    exact C.outer_bind (ho hm context) fun _ => C.outer_ofExcept _
  between pos value low high hv hl hh hm context := by
    simp only [Expr.mentions, List.mem_append, or_imp, forall_and] at hm
    simp only [evaluate]
    exact C.outer_bind (hv hm.1.1 context) fun v => C.outer_bind (hl hm.1.2 context) fun a =>
      C.outer_bind (hh hm.2 context) fun b => C.outer_ofExcept _
  member pos value items hv hi hq hm context := by
    simp only [Expr.mentions, List.mem_append, or_imp, forall_and] at hm
    have hmi := fun item (h : item ∈ items) m (hx : m ∈ item.mentions) =>
      hm.2 m (mem_eachMentions.mpr ⟨item, h, hx⟩)
    simp only [evaluate]
    refine C.outer_bind (hv hm.1 context) fun v => C.outer_bind ?_ fun vs => C.outer_pure _
    refine C.outer_items (fun item h => hi item h (hmi item h) context) fun query h => ?_
    exact hq query h fun m hx => hmi _ h m (by simpa [Expr.mentions] using hx)
  like pos value pattern ignoreCase hv hp hm context := by
    simp only [Expr.mentions, List.mem_append, or_imp, forall_and] at hm
    simp only [evaluate]
    exact C.outer_bind (hv hm.1 context) fun v => C.outer_bind (hp hm.2 context) fun p =>
      C.outer_ofExcept _
  isNull pos operand ho hm context := by
    simp only [evaluate]
    exact C.outer_bind (ho hm context) fun _ => C.outer_pure _
  case pos whens thens otherwise hw ht ho hm context := by
    simp only [Expr.mentions, List.mem_append, or_imp, forall_and] at hm
    simp only [evaluate, evaluateEach_eq, evaluateOption_eq]
    split
    · exact C.outer_throw _
    · exact C.outer_firstHolding (C.outer_of_option ho hm.2) context
        (C.outer_of_each hw hm.1.1) (C.outer_of_each ht hm.1.2)
  call pos callee args star ha hm context := by
    simp only [evaluate, evaluateEach_eq]
    exact C.outer_call pos _ star context (C.outer_of_each ha hm)
  group pos inner hi hm context := by
    simp only [evaluate]
    exact hi hm context
  existence pos query hq hm context := by
    simp only [evaluate]
    exact C.outer_bind (hq hm) fun _ => C.outer_pure _
  subquery query hq hm context := by
    simp only [evaluate]
    exact C.outer_scalar (hq hm)
  select query h hm := by
    rw [evaluateSelect_eq]
    exact C.outer_inChildScope (C.inner_pipeline h (Select.partsFit hm))

theorem outer_evaluate (expr : Expr) (hm : ∀ m ∈ expr.mentions, fits m) (context : Context) :
    C.outer (evaluate env expr context) := C.steps.expr expr hm context

theorem outer_evaluateSelect (query : Select) (hm : ∀ m ∈ query.mentions, fits m) :
    C.outer (evaluateSelect env query) := C.steps.query query hm

/-- What a query does in its own frame has every compositional property. -/
theorem pipeline_inner (query : Select) (hm : ∀ m ∈ query.mentions, fits m) :
    C.inner (query.pipeline env) :=
  C.inner_pipeline (C.steps.parts query) (Select.partsFit hm)

end Compositional

end TableQuery
