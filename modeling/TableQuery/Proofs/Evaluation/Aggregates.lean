import TableQuery.Proofs.Evaluation.Grouping
import TableQuery.Proofs.Evaluation.Operands
import TableQuery.Proofs.Evaluation.Same

/-! # Aggregates of a group

The argument of an aggregate is evaluated on the rows that were grouped, in the frame that they were
taken from. In the select list that is the frame at hand; in `having` it is the one that the frame
of the projected groups has taken the place of. An aggregate goes from the state at hand to that
frame itself, so it does not matter in which of the two clauses it stands. -/

namespace TableQuery

open Eval

variable {α β : Type} {env : Environment} {s t : State}

/-! ## Outcomes -/

theorem Eval.outcome_bind_ofExcept (act : Eval α) (next : α → Except QueryError β) (s : State) :
    ((act >>= fun a => ofExcept (next a)).runFrom s).1 = (act.runFrom s).1 >>= next := by
  rw [runFrom_bind]
  cases h : act.runFrom s with
  | mk outcome t =>
    cases outcome with
    | error e => rfl
    | ok a => rfl

/-- What is evaluated in the frame of grouped rows has the outcome that it has there. -/
theorem Eval.outcome_inGroupSource (act : Eval α) (s : State) :
    (act.inGroupSource.runFrom s).1 = (act.runFrom s.inSource).1 := by
  obtain ⟨scope, source?, n⟩ := s
  cases source? with
  | none => rfl
  | some source => rfl

/-- The values of an expression without queries on some rows depend on the frames alone. -/
theorem Expr.QueryFree.outcome_rows {arg : Expr} (h : arg.QueryFree) (rows : List Row)
    (hscope : t.scope = s.scope) (hsource : t.groupSource = s.groupSource) :
    ((rows.mapM fun row => evaluate env arg (.ofRow row)).runFrom t).1 =
      ((rows.mapM fun row => evaluate env arg (.ofRow row)).runFrom s).1 := by
  have hagrees := (alikeCompositional .written env).outer_mapM rows fun row _ =>
    (alikeCompositional .written env).outer_evaluate arg h.fits (.ofRow row)
  exact (hagrees.1 s t (State.alike_of_scope hscope hsource _)).1.symm

/-- An aggregate depends on the rows of the group and on the frame that they were taken from. -/
theorem Meaning.outcome_aggregate {name : String} {args : List Expr} {star : Bool}
    {context context' : Context} (hargs : ∀ arg ∈ args, arg.QueryFree)
    (hgroup : context'.group = context.group) (hscope : t.inSource.scope = s.inSource.scope)
    (hsource : t.inSource.groupSource = s.inSource.groupSource) :
    ((aggregate env name (args.map (evaluate env)) star context').runFrom t).1 =
      ((aggregate env name (args.map (evaluate env)) star context).runFrom s).1 := by
  unfold aggregate
  rw [hgroup]
  cases context.group with
  | none => rfl
  | some rows =>
    rw [runFrom_bind, runFrom_bind]
    cases env.functions.checkAggregate name (args.map (evaluate env)).length star with
    | error e => rfl
    | ok function =>
      cases star with
      | true => rfl
      | false =>
        cases args with
        | nil => rfl
        | cons arg rest =>
          have harg := hargs arg List.mem_cons_self
          refine (outcome_bind_ofExcept _ _ t).trans ?_
          refine Eq.trans ?_ (outcome_bind_ofExcept _ _ s).symm
          rw [outcome_inGroupSource, outcome_inGroupSource, harg.outcome_rows rows hscope hsource]

/-! ## Having and the select list -/

/-- Called in the state `s`, the query has grouped the rows of a table, and its select list has made
a row of each group. -/
structure Select.Grouped (env : Environment) (query : Select) (s : State) (table : Table)
    (groups : List Group) (listing : State) (projected : Table) (after : State) : Prop where
  filtered : ∃ ref, query.source = some ref ∧
    Returns ((query.parts env).filtered (evaluateTableRef env false ref)) s.opened table listing
  grouped : Returns (Clause.groups env.functions query.groupBy query.columns table) listing groups
    listing
  projected : Returns (Clause.groupTable (Clause.groupedName table)
    (Clause.outputNames query.columns) (query.parts env).columns groups) listing projected after

variable {query : Select} {table projected : Table} {groups : List Group} {listing after : State}

theorem Select.Grouped.groupSource (h : query.Grouped env s table groups listing projected after) :
    listing.groupSource = none := by
  obtain ⟨ref, hs, hf⟩ := h.filtered
  exact (filtered_joined hs hf).groupSource

/-- An aggregate means the same in `having` as in the select list: with arguments that have no
queries in them, its call on a group has one outcome, a value or a failure, in all states in which
the select list is evaluated on the group and in all those in which `having` is evaluated on the row
that was made of it. These are the states of `having`: what its condition does in them, on the rows
of the projection with their groups, is all that it depends on. -/
theorem Select.aggregate_in_having (h : query.Grouped env s table groups listing projected after)
    (row : Row) (group : Group) {t t' : State} (ht : listing.Restored t)
    (ht' : (after.overProjection projected).Restored t')
    {pos : Position} {callee : Expr} {name : String} {args : List Expr} {star : Bool}
    (hname : callee.calleeName? = some name) (hagg : env.functions.isAggregate name = true)
    (hargs : ∀ arg ∈ args, arg.QueryFree) :
    ((evaluate env (.call pos callee args star) (.ofGroup row group.rows)).runFrom t').1 =
        ((evaluate env (.call pos callee args star)
          (.ofGroup group.keyRow group.rows)).runFrom t).1 ∧
      ∀ condition condition' : Meaning,
        (∀ row group, (row, group) ∈ projected.rows.zip groups →
          Same (after.overProjection projected) (condition' (.ofGroup row group.rows))
            (condition (.ofGroup row group.rows))) →
        (Clause.having (some condition') groups projected).runFrom after =
          (Clause.having (some condition) groups projected).runFrom after := by
  refine ⟨?_, fun _ _ => Clause.having_congr⟩
  have hnone := h.groupSource
  have hafter := (groupTable_returns h.projected).1
  have hlist : t.inSource = t := by
    unfold State.inSource
    rw [ht.groupSource, hnone]
  have hhaving : t'.inSource = { t' with scope := listing.scope, groupSource := none } := by
    unfold State.inSource
    rw [ht'.groupSource, ht'.scope, ← hafter.scope]
    rfl
  -- in `having` the frame of the grouped rows is put back, so both calls start from one scope
  simp only [evaluate, evaluateEach_eq, hname, Meaning.call, hagg, if_true]
  refine Meaning.outcome_aggregate hargs rfl ?_ ?_
  · rw [hhaving, hlist, ht.scope]
  · rw [hhaving, hlist, ht.groupSource, hnone]

/-- The column that is counted and the column of the result have one name. -/
theorem Select.counted_in_having_as_listed :
    ∃ (query : Select) (s : State) (table : Table) (groups : List Group) (listing : State)
      (projected : Table) (after : State) (call : Expr) (row : Row) (group : Group),
      query.Grouped ⟨.standard, .standard⟩ s table groups listing projected after ∧
      (row, group) ∈ projected.rows.zip groups ∧
      ((evaluate ⟨.standard, .standard⟩ call (.ofGroup row group.rows)).runFrom
          (after.overProjection projected)).1 =
        ((evaluate ⟨.standard, .standard⟩ call
          (.ofGroup group.keyRow group.rows)).runFrom listing).1 ∧
      ((evaluate ⟨.standard, .standard⟩ call
        (.ofGroup group.keyRow group.rows)).runFrom listing).1 = .ok (.number (.ofNat 2)) := by
  have hgrouped : Select.Grouped ⟨.standard, .standard⟩
      ⟨.start, false, [⟨.call .start (.column ⟨.start, none, "count"⟩)
          [.column ⟨.start, none, "x"⟩] false, some "x"⟩],
        some ⟨.start, .table "t", some "a"⟩, [], none, [.column ⟨.start, none, "y"⟩], none, [],
        none, none⟩
      ⟨.ofRoot (Frame.empty.setTable "t" ⟨"t", ["x", "y"], [["p", "r"], ["q", "r"]].map fun texts =>
        ⟨[("t", 0)], Column.ofFields "t" ["x", "y"], texts.map .text⟩⟩), none, 0⟩ _ _ _ _ _ :=
    ⟨⟨_, rfl, rfl⟩, rfl, rfl⟩
  refine ⟨_, _, _, _, _, _, _, .call .start (.column ⟨.start, none, "count"⟩)
    [.column ⟨.start, none, "x"⟩] false, _, _, hgrouped, List.mem_cons_self, ?_, rfl⟩
  exact (Select.aggregate_in_having hgrouped _ _ (.refl _) (.refl _) rfl rfl
    (List.forall_mem_singleton.mpr (.intro rfl (List.forall_mem_nil _)))).1

end TableQuery
