import TableQuery.Proofs.Evaluation.Sources

/-! # What a query evaluates

A query evaluates expressions, columns and nested queries: in which clause, on which row and in
which state. The relation below says so clause by clause, from the stages before, and then through
the operands of expressions; it allows for more than is evaluated in the end, since it does not look
at what short cuts leave out. An invariant of the relation gives the frame and the row in all of
these places. -/

namespace TableQuery

open Eval

/-! ## Places and tasks -/

/-- Where something stands in a query. -/
inductive Place where
  | source
  | on
  | filter
  | list
  /-- In the argument of an aggregate, whatever clause that is in. -/
  | argument
  | having
  | order
  | offset
  | limit
  deriving DecidableEq, Repr

/-- Names are found in the result of the query and no longer in its tables. -/
def Place.late : Place → Bool
  | having | order | offset | limit => true
  | source | on | filter | list | argument => false

/-- Something to be evaluated. -/
inductive Task where
  | value (expr : Expr) (context : Context)
  | column (ref : ColumnRef) (row : Row)
  | table (query : Select)

namespace Task

/-- The row that columns are read from. -/
def row? : Task → Option Row
  | value _ context => context.row
  | column _ row => some row
  | table _ => none

/-- The rows that aggregates work on. -/
def group? : Task → Option (List Row)
  | value _ context => context.group
  | column _ _ => none
  | table _ => none

end Task

namespace Expr

/-- The expressions that an expression is made of. Arguments of aggregates are among them. -/
def operands : Expr → List Expr
  | .literal _ _ | .column _ => []
  | .binary _ _ left right | .logical _ _ left right => [left, right]
  | .not _ operand | .negate _ operand | .isNull _ operand => [operand]
  | .between _ value low high => [value, low, high]
  | .member _ value items => value :: items
  | .like _ value pattern _ => [value, pattern]
  | .case _ whens thens otherwise => whens ++ thens ++ otherwise.toList
  | .call _ _ args _ => args
  | .group _ inner => [inner]
  | .existence _ _ | .subquery _ => []

/-- The query that an expression stands for. -/
def query? : Expr → Option Select
  | .existence _ query | .subquery query => some query
  | _ => none

end Expr

/-- The state in which the argument of an aggregate is evaluated. -/
def State.inSource (s : State) : State :=
  match s.groupSource with
  | none => s
  | some source => { s with scope := s.scope.replace source, groupSource := none }

/-! ## Evaluation inside a query -/

/-- Called in the state `s`, the query evaluates a task in a state. The task stands in a place, and
the frame is what the from item and the joins have bound by then. -/
inductive Select.Evaluates (env : Environment) (query : Select) (s : State) :
    Place → Frame → Task → State → Prop where
  | single {column : SelectColumn} {t : State} (hs : query.source = none)
    (hc : column ∈ query.columns) (ht : s.opened.Restored t) :
    Evaluates env query s .list .empty (.value column.expr .none) t
  | derived {ref : TableRef} {inner : Select} {t : State} (hs : query.source = some ref)
    (hi : ref.source = .subquery inner) (ht : s.opened.Restored t) :
    Evaluates env query s .source .empty (.table inner) t
  | joinDerived {ref : TableRef} {before after : List Join} {join : Join} {left : Table}
    {inner : Select} {u t : State} (hs : query.source = some ref)
    (hj : query.joins = before ++ join :: after)
    (hl : Returns (Pipeline.joined (evaluateTableRef env false ref)
      (before.map (evaluateJoin env))) s.opened left u)
    (hi : join.table.source = .subquery inner) (ht : u.Restored t) :
    Evaluates env query s .source u.scope.innermost (.table inner) t
  | on {ref : TableRef} {before after : List Join} {join : Join} {left right : Table}
    {condition : Expr} {l r : Row} {u v t : State} (hs : query.source = some ref)
    (hj : query.joins = before ++ join :: after)
    (hl : Returns (Pipeline.joined (evaluateTableRef env false ref)
      (before.map (evaluateJoin env))) s.opened left u)
    (hr : Returns (evaluateTableRef env true join.table) u right v)
    (hc : join.condition = some condition) (hlr : l ∈ left.rows) (hrr : r ∈ right.rows)
    (ht : v.Restored t) :
    Evaluates env query s .on v.scope.innermost (.value condition (.ofRow (l.join r))) t
  | filter {ref : TableRef} {table : Table} {condition : Expr} {row : Row} {u t : State}
    (hs : query.source = some ref)
    (hj : Returns (Pipeline.joined (evaluateTableRef env false ref) (query.parts env).joins)
      s.opened table u)
    (hf : query.filter = some condition) (hr : row ∈ table.rows) (ht : u.Restored t) :
    Evaluates env query s .filter u.scope.innermost (.value condition (.ofRow row)) t
  | list {ref : TableRef} {table : Table} {column : SelectColumn} {row : Row} {u t : State}
    (hs : query.source = some ref)
    (hf : Returns ((query.parts env).filtered (evaluateTableRef env false ref)) s.opened table u)
    (hg : query.groupBy = []) (hc : column ∈ query.columns) (hr : row ∈ table.rows)
    (ht : u.Restored t) :
    Evaluates env query s .list u.scope.innermost (.value column.expr (.ofRow row)) t
  | key {ref : TableRef} {key : ColumnRef} {table : Table} {row : Row} {u : State}
    (hs : query.source = some ref)
    (hf : Returns ((query.parts env).filtered (evaluateTableRef env false ref)) s.opened table u)
    (hk : .column key ∈ query.groupBy) (hr : row ∈ table.rows) :
    Evaluates env query s .list u.scope.innermost (.column key row) u
  | groupList {ref : TableRef} {table : Table} {groups : List Group} {column : SelectColumn}
    {group : Group} {u v t : State} (hs : query.source = some ref)
    (hf : Returns ((query.parts env).filtered (evaluateTableRef env false ref)) s.opened table u)
    (hg : Returns (Clause.groups env.functions query.groupBy query.columns table) u groups v)
    (hc : column ∈ query.columns) (hm : group ∈ groups) (ht : v.Restored t) :
    Evaluates env query s .list u.scope.innermost
      (.value column.expr (.ofGroup group.keyRow group.rows)) t
  | having {ref : TableRef} {table projected : Table} {groups : List Group} {condition : Expr}
    {row : Row} {group : Group} {u v w t : State} (hs : query.source = some ref)
    (hf : Returns ((query.parts env).filtered (evaluateTableRef env false ref)) s.opened table u)
    (hg : Returns (Clause.groups env.functions query.groupBy query.columns table) u groups v)
    (hp : Returns (Clause.groupTable (Clause.groupedName table)
      (Clause.outputNames query.columns) (query.parts env).columns groups) v projected w)
    (hc : query.having = some condition) (hm : (row, group) ∈ projected.rows.zip groups)
    (ht : State.Restored ⟨w.scope.rebind projected, some w.scope.innermost, w.labelCounter⟩ t) :
    Evaluates env query s .having u.scope.innermost
      (.value condition (.ofGroup row group.rows)) t
  | order {ref : TableRef} {key : OrderKey} {table result : Table} {row : Row} {u t : State}
    (hs : query.source = some ref)
    (hf : Returns ((query.parts env).filtered (evaluateTableRef env false ref)) s.opened table u)
    (hr : Returns ((query.parts env).selected env query (evaluateTableRef env false ref))
      s.opened result t)
    (hk : key ∈ query.orderBy) (hm : row ∈ result.rows) :
    Evaluates env query s .order u.scope.innermost (.column key.column row) t
  | offset {ref : TableRef} {table result : Table} {count : Expr} {u v t : State}
    (hs : query.source = some ref)
    (hf : Returns ((query.parts env).filtered (evaluateTableRef env false ref)) s.opened table u)
    (hr : Returns ((query.parts env).ordered env query (evaluateTableRef env false ref))
      s.opened result v)
    (hc : query.offset = some count) (ht : v.Restored t) :
    Evaluates env query s .offset u.scope.innermost (.value count .none) t
  | limit {ref : TableRef} {table result : Table} {count : Expr} {u v t : State}
    (hs : query.source = some ref)
    (hf : Returns ((query.parts env).filtered (evaluateTableRef env false ref)) s.opened table u)
    (hr : Returns ((query.parts env).skipped env query (evaluateTableRef env false ref))
      s.opened result v)
    (hc : query.limit = some count) (ht : v.Restored t) :
    Evaluates env query s .limit u.scope.innermost (.value count .none) t
  | operand {place : Place} {items : Frame} {expr part : Expr} {context : Context} {t u : State}
    (h : Evaluates env query s place items (.value expr context) t) (hp : part ∈ expr.operands)
    (ht : t.Restored u) : Evaluates env query s place items (.value part context) u
  | argument {place : Place} {items : Frame} {pos : Position} {callee arg : Expr}
    {args : List Expr} {star : Bool} {context : Context} {rows : List Row} {row : Row}
    {t u : State}
    (h : Evaluates env query s place items (.value (.call pos callee args star) context) t)
    (ha : arg ∈ args) (hg : context.group = some rows) (hr : row ∈ rows) (ht : t.Restored u) :
    Evaluates env query s .argument items (.value arg (.ofRow row)) u.inSource
  | column {place : Place} {items : Frame} {ref : ColumnRef} {context : Context} {row : Row}
    {t : State} (h : Evaluates env query s place items (.value (.column ref) context) t)
    (hr : context.row = some row) : Evaluates env query s place items (.column ref row) t
  | table {place : Place} {items : Frame} {expr : Expr} {inner : Select} {context : Context}
    {t u : State} (h : Evaluates env query s place items (.value expr context) t)
    (hq : expr.query? = some inner) (ht : t.Restored u) :
    Evaluates env query s place items (.table inner) u

/-! ## Frames and rows -/

theorem forall_of_eq_none {α : Type} {P : α → Prop} {a? : Option α} (h : a? = none) :
    ∀ a, a? = some a → P a := by
  intro a ha
  rw [h] at ha
  cases ha

/-- What holds of a task that a query evaluates, called in the state `s`. -/
structure Select.Sound (query : Select) (s : State) (place : Place) (items : Frame) (task : Task)
    (t : State) : Prop where
  outer : t.scope.outer = s.scope.frames
  binds : query.Binds s.scope items
  groupSource : t.groupSource = if place = .having then some items else none
  early : place.late = false → t.scope.innermost = items ∧
    ∀ row, task.row? = some row → row.From (query.Origin s.scope)
  late : place.late = true → ∃ result, t.scope.innermost = items.rebound result ∧
    ∀ row, task.row? = some row → row.From (· = result.name)
  group : ∀ rows, task.group? = some rows →
    (place.late = true → place = .having) ∧ ∀ row ∈ rows, row.From (query.Origin s.scope)

namespace Select

variable {env : Environment} {query : Select} {s t u : State} {place : Place} {items : Frame}
  {task task' : Task}

theorem Sound.step (h : query.Sound s place items task t) (hr : t.Restored u)
    (hrow : ∀ row, task'.row? = some row → task.row? = some row)
    (hgroup : ∀ rows, task'.group? = some rows → task.group? = some rows) :
    query.Sound s place items task' u where
  outer := by rw [hr.scope]; exact h.outer
  binds := h.binds
  groupSource := hr.groupSource.trans h.groupSource
  early hl := by
    rw [hr.scope]
    exact ⟨(h.early hl).1, fun row hm => (h.early hl).2 row (hrow row hm)⟩
  late hl := by
    obtain ⟨result, hi, hrows⟩ := h.late hl
    rw [hr.scope]
    exact ⟨result, hi, fun row hm => hrows row (hrow row hm)⟩
  group rows hm := h.group rows (hgroup rows hm)

/-- The argument of an aggregate finds names where the query does before its select list. -/
theorem Sound.argument {expr arg : Expr} {context : Context} {rows : List Row} {row : Row}
    (h : query.Sound s place items (.value expr context) t) (hg : context.group = some rows)
    (hrow : row ∈ rows) (ht : t.Restored u) :
    query.Sound s .argument items (.value arg (.ofRow row)) u.inSource := by
  obtain ⟨hlate, hrows⟩ := h.group rows hg
  have hscope : u.inSource.scope = t.scope.replace items ∧ u.inSource.groupSource = none := by
    unfold State.inSource
    rw [ht.groupSource, h.groupSource]
    by_cases hp : place = .having
    · rw [if_pos hp, ht.scope]
      exact ⟨rfl, rfl⟩
    · have he : place.late = false := by
        cases hl : place.late with
        | false => rfl
        | true => exact absurd (hlate hl) hp
      rw [if_neg hp]
      refine ⟨?_, by rw [ht.groupSource, h.groupSource, if_neg hp]⟩
      rw [ht.scope, ← (h.early he).1]
      rfl
  refine ⟨?_, h.binds, hscope.2, fun _ => ⟨?_, ?_⟩,
    fun hl => absurd hl Bool.false_ne_true, forall_of_eq_none rfl⟩
  · rw [hscope.1]
    exact h.outer
  · rw [hscope.1]
    rfl
  · intro r hr
    cases hr
    exact hrows row hrow

/-- Nothing is bound when a query starts. -/
theorem joined_opened : query.Joined s ⟨"", [], []⟩ s.opened :=
  ⟨rfl, rfl, query.binds_empty s.scope, fun _ hm => absurd hm List.not_mem_nil⟩

theorem Joined.sound {table : Table} (h : query.Joined s table u) (ht : u.Restored t)
    (hp : place.late = false) (hrow : ∀ row, task.row? = some row → row.From (query.Origin s.scope))
    (hgroup : ∀ rows, task.group? = some rows → ∀ row ∈ rows, row.From (query.Origin s.scope)) :
    query.Sound s place u.scope.innermost task t where
  outer := (h.of_restored ht).outer
  binds := h.binds
  groupSource := by
    have hne : place ≠ .having := by
      rintro rfl
      cases hp
    rw [if_neg hne]
    exact (h.of_restored ht).groupSource
  early _ := ⟨by rw [ht.scope], hrow⟩
  late hl := by
    rw [hp] at hl
    cases hl
  group rows hm := ⟨fun hl => absurd (hp.symm.trans hl) Bool.false_ne_true, hgroup rows hm⟩

theorem Joined.sound_late {table result : Table} (h : query.Joined s table u)
    (hscope : t.scope = u.scope.rebind result)
    (hsource : t.groupSource = if place = .having then some u.scope.innermost else none)
    (hp : place.late = true) (hrow : ∀ row, task.row? = some row → row.From (· = result.name))
    (hgroup : ∀ rows, task.group? = some rows →
      place = .having ∧ ∀ row ∈ rows, row.From (query.Origin s.scope)) :
    query.Sound s place u.scope.innermost task t where
  outer := by rw [hscope]; exact h.outer
  binds := h.binds
  groupSource := hsource
  early hl := by
    rw [hp] at hl
    cases hl
  late _ := ⟨result, by rw [hscope]; rfl, hrow⟩
  group rows hm := ⟨fun _ => (hgroup rows hm).1, (hgroup rows hm).2⟩

/-- The state in which limit and offset are evaluated, when the results have been ordered. -/
theorem Joined.sound_slice {table ordered : Table} {ref : TableRef} {v : State}
    (h : query.Joined s table u)
    (hf : Returns ((query.parts env).filtered (evaluateTableRef env false ref)) s.opened table u)
    (ho : Returns ((query.parts env).ordered env query (evaluateTableRef env false ref))
      s.opened ordered v)
    (ht : v.Restored t) (hp : place.late = true) (hne : place ≠ .having) (count : Expr) :
    query.Sound s place u.scope.innermost (.value count .none) t := by
  obtain ⟨selected, hs⟩ := ordered_returns ho
  obtain ⟨table', u', hf', hproj⟩ := selected_returns hs
  obtain ⟨-, rfl⟩ := hf.unique hf'
  refine h.sound_late (ht.scope.trans hproj.scope) ?_ hp (forall_of_eq_none rfl)
    (forall_of_eq_none rfl)
  rw [if_neg hne, ht.groupSource, hproj.groupSource, h.groupSource]

/-- Every task that a query evaluates finds the frames and rows of its place. -/
theorem Evaluates.sound (h : query.Evaluates env s place items task t) :
    query.Sound s place items task t := by
  induction h with
  | single hs hc ht =>
    exact joined_opened.sound ht rfl (forall_of_eq_none rfl) (forall_of_eq_none rfl)
  | derived hs hi ht =>
    exact joined_opened.sound ht rfl (forall_of_eq_none rfl) (forall_of_eq_none rfl)
  | joinDerived hs hj hl hi ht =>
    exact (joined_returns hs hl).sound ht rfl (forall_of_eq_none rfl) (forall_of_eq_none rfl)
  | on hs hj hl hr hc hlr hrr ht =>
    have hleft := joined_returns hs hl
    obtain ⟨hv, _, hright⟩ := hleft.tableRef hr
    refine hv.sound ht rfl (fun row hm => ?_) (forall_of_eq_none rfl)
    cases hm
    exact (hleft.rows _ hlr).join (hright _ hrr)
  | filter hs hj hf hr ht =>
    rw [parts] at hj
    have hu := joined_returns hs hj
    refine hu.sound ht rfl (fun row hm => ?_) (forall_of_eq_none rfl)
    cases hm
    exact hu.rows _ hr
  | list hs hf hg hc hr ht =>
    have hu := filtered_joined hs hf
    refine hu.sound ht rfl (fun row hm => ?_) (forall_of_eq_none rfl)
    cases hm
    exact hu.rows _ hr
  | key hs hf hk hr =>
    have hu := filtered_joined hs hf
    refine hu.sound (.refl _) rfl (fun row hm => ?_) (forall_of_eq_none rfl)
    cases hm
    exact hu.rows _ hr
  | groupList hs hf hg hc hm ht =>
    have hu := filtered_joined hs hf
    obtain ⟨rfl, hgroups⟩ := groups_returns hu.rows hg
    refine hu.sound ht rfl (fun row hrow => ?_) fun rows hrows => ?_
    · cases hrow
      exact (hgroups _ hm).1
    · cases hrows
      exact (hgroups _ hm).2
  | having hs hf hg hp hc hm ht =>
    have hu := filtered_joined hs hf
    obtain ⟨rfl, hgroups⟩ := groups_returns hu.rows hg
    obtain ⟨hr, hname, hrows⟩ := groupTable_returns hp
    have hscope := ht.scope
    rw [hr.scope] at hscope
    refine hu.sound_late hscope ?_ rfl (fun row hrow => ?_) fun rows hgroup => ⟨rfl, ?_⟩
    · rw [if_pos rfl, ht.groupSource, hr.scope]
    · cases hrow
      rw [hname]
      exact hrows _ (List.of_mem_zip hm).1
    · cases hgroup
      exact (hgroups _ (List.of_mem_zip hm).2).2
  | order hs hf hr hk hm =>
    have hu := filtered_joined hs hf
    obtain ⟨table', u', hf', hproj⟩ := selected_returns hr
    obtain ⟨-, rfl⟩ := hf.unique hf'
    refine hu.sound_late hproj.scope (hproj.groupSource.trans hu.groupSource) rfl
      (fun row hrow => ?_) (forall_of_eq_none rfl)
    cases hrow
    exact hproj.rows _ hm
  | offset hs hf hr hc ht =>
    exact (filtered_joined hs hf).sound_slice hf hr ht rfl (by decide) _
  | limit hs hf hr hc ht =>
    obtain ⟨ordered, w, ho, hw⟩ := skipped_returns hr
    exact (filtered_joined hs hf).sound_slice hf ho (hw.trans ht) rfl (by decide) _
  | operand h hp ht ih => exact ih.step ht (fun _ hm => hm) fun _ hm => hm
  | argument h ha hg hr ht ih => exact ih.argument hg hr ht
  | column h hr ih =>
    refine ih.step (.refl _) (fun row hm => ?_) (forall_of_eq_none rfl)
    cases hm
    exact hr
  | table h hq ht ih => exact ih.step ht (forall_of_eq_none rfl) (forall_of_eq_none rfl)

end Select

end TableQuery
