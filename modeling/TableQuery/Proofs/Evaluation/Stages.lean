import TableQuery.Proofs.Evaluation.Restore
import TableQuery.Proofs.Table.Origin

/-! # The stages of a query

What a stage of a query has done when it succeeds: which rows it lets through, what it makes of the
innermost frame, and where the columns of the rows come from. Later stages say it in terms of the
ones before them. -/

namespace TableQuery

/-- The state in which `having` is evaluated. The projected groups stand in the place of the frame
that their rows were grouped in, and that one is kept for aggregates. -/
def State.overProjection (s : State) (projected : Table) : State :=
  ⟨s.scope.rebind projected, some s.scope.innermost, s.labelCounter⟩

namespace Eval

variable {α β : Type}

theorem Moves.returns {R : State → State → Prop} {act : Eval α} (h : act.Moves R) {s t : State}
    {a : α} (hr : Returns act s a t) : R s t := by
  have hs := h s
  rwa [hr] at hs

/-- From one state an evaluation returns one value and leaves one state. -/
theorem Returns.unique {act : Eval α} {s t t' : State} {a a' : α} (h : Returns act s a t)
    (h' : Returns act s a' t') : a = a' ∧ t = t' := by
  have he := h.symm.trans h'
  cases he
  exact ⟨rfl, rfl⟩

/-- The condition leaves the projection's frame as it found it. -/
theorem Returns.overProjection {act : Eval α} {projected : Table} {s t : State} {a : α}
    (hm : act.Moves State.Restored) (h : Returns (act.overProjection projected) s a t) :
    t.scope = s.scope.rebind projected ∧ t.groupSource = s.groupSource ∧
      ∃ u, Returns act (s.overProjection projected) a u := by
  let run := act.runFrom (s.overProjection projected)
  change (run.1, { run.2 with groupSource := s.groupSource }) = (.ok a, t) at h
  obtain ⟨ha, rfl⟩ := Prod.mk.inj h
  exact ⟨(hm (s.overProjection projected)).scope, rfl, _, Prod.ext ha rfl⟩

theorem Returns.foldlM {P : β → State → Prop} {step : β → α → Eval β} :
    ∀ {as : List α} {b c : β} {s t : State}, P b s →
      (∀ a ∈ as, ∀ b c u v, P b u → Returns (step b a) u c v → P c v) →
      Returns (as.foldlM step b) s c t → P c t
  | [], b, c, s, t, hb, _, h => by
    obtain ⟨rfl, rfl⟩ := Returns.pure h
    exact hb
  | a :: rest, b, c, s, t, hb, hs, h => by
    rw [List.foldlM_cons] at h
    obtain ⟨next, u, hn, h⟩ := Returns.bind h
    exact Returns.foldlM (hs a List.mem_cons_self b next s u hb hn)
      (fun a' ha => hs a' (List.mem_cons_of_mem _ ha)) h

theorem Returns.keepM {condition : α → Eval Bool} : ∀ {as kept : List α} {s t : State},
    Returns (keepM condition as) s kept t → ∀ a ∈ kept, a ∈ as
  | [], kept, s, t, h => by
    obtain ⟨rfl, rfl⟩ := Returns.pure h
    exact fun a ha => ha
  | a :: rest, kept, s, t, h => by
    obtain ⟨keep, u, _, h⟩ := Returns.bind h
    obtain ⟨others, v, ho, h⟩ := Returns.bind h
    obtain ⟨rfl, rfl⟩ := Returns.pure h
    have hr := Returns.keepM ho
    intro b hb
    cases keep with
    | true =>
      rcases List.mem_cons.mp hb with rfl | hb
      · exact List.mem_cons_self
      · exact List.mem_cons_of_mem _ (hr b hb)
    | false => exact List.mem_cons_of_mem _ (hr b hb)

theorem Returns.mapM {act : α → Eval β} : ∀ {as : List α} {bs : List β} {s t : State},
    Returns (as.mapM act) s bs t → ∀ b ∈ bs, ∃ a ∈ as, ∃ u v, Returns (act a) u b v
  | [], bs, s, t, h => by
    rw [List.mapM_nil] at h
    obtain ⟨rfl, rfl⟩ := Returns.pure h
    exact nofun
  | a :: rest, bs, s, t, h => by
    rw [List.mapM_cons] at h
    obtain ⟨first, u, hf, h⟩ := Returns.bind h
    obtain ⟨others, v, ho, h⟩ := Returns.bind h
    obtain ⟨rfl, rfl⟩ := Returns.pure h
    refine List.forall_mem_cons.mpr ⟨⟨a, List.mem_cons_self, s, u, hf⟩, fun b hb => ?_⟩
    obtain ⟨a', ha, w⟩ := Returns.mapM ho b hb
    exact ⟨a', List.mem_cons_of_mem _ ha, w⟩

end Eval

open Eval

variable {env : Environment}

/-- Expressions and queries restore the state. -/
def restoring (env : Environment) : Compositional env fun _ => True :=
  State.stepRelation_enclosed.compositional env

/-! ## Joins -/

theorem Table.mem_crossJoin {left right : Table} {name : String} {row : Row}
    (h : row ∈ (left.crossJoin right name).rows) :
    ∃ l ∈ left.rows, ∃ r ∈ right.rows, row = l.join r := by
  obtain ⟨l, hl, h⟩ := List.mem_flatMap.mp h
  obtain ⟨r, hr, rfl⟩ := List.mem_map.mp h
  exact ⟨l, hl, r, hr, rfl⟩

/-- A joined row is made of a left row and of a right one, or of one that stands for it. -/
theorem Table.joinRows_returns {outer : Bool} {right : Table} {condition : Row → Eval Bool} :
    ∀ {rows joined : List Row} {s t : State},
      Returns (joinRows outer right condition rows) s joined t → ∀ row ∈ joined,
        ∃ l ∈ rows, ∃ r, (r ∈ right.rows ∨ r = right.nullRow) ∧ row = l.join r
  | [], joined, s, t, h => by
    obtain ⟨rfl, rfl⟩ := Returns.pure h
    exact nofun
  | first :: rest, joined, s, t, h => by
    obtain ⟨found, u, hf, h⟩ := Returns.bind h
    obtain ⟨more, v, hm, h⟩ := Returns.bind h
    obtain ⟨rfl, rfl⟩ := Returns.pure h
    have hfound : ∀ row ∈ found, ∃ l ∈ first :: rest, ∃ r,
        (r ∈ right.rows ∨ r = right.nullRow) ∧ row = l.join r := by
      intro row hrow
      obtain ⟨r, hr, rfl⟩ := List.mem_map.mp (Returns.keepM hf row hrow)
      exact ⟨first, List.mem_cons_self, r, .inl hr, rfl⟩
    intro row hrow
    rcases List.mem_append.mp hrow with hrow | hrow
    · split at hrow
      · cases List.mem_singleton.mp hrow
        exact ⟨first, List.mem_cons_self, right.nullRow, .inr rfl, rfl⟩
      · exact hfound row hrow
    · obtain ⟨l, hl, r⟩ := joinRows_returns hm row hrow
      exact ⟨l, List.mem_cons_of_mem _ hl, r⟩

theorem evaluateJoin_returns {join : Join} {left table : Table} {s t : State}
    (h : Returns (evaluateJoin env join left) s table t) :
    ∃ right u, Returns (evaluateTableRef env true join.table) s right u ∧ u.Restored t ∧
      ∀ row ∈ table.rows, ∃ l ∈ left.rows, ∃ r, (r ∈ right.rows ∨ r = right.nullRow) ∧
        row = l.join r := by
  rw [evaluateJoin_eq] at h
  unfold Clause.join at h
  split at h
  · exact (Returns.throw h).elim
  · obtain ⟨right, u, hr, h⟩ := Returns.bind h
    refine ⟨right, u, hr, ?_⟩
    split at h
    · obtain ⟨rfl, rfl⟩ := Returns.pure h
      refine ⟨.refl t, fun row hrow => ?_⟩
      obtain ⟨l, hl, r, hr, he⟩ := Table.mem_crossJoin hrow
      exact ⟨l, hl, r, .inl hr, he⟩
    · cases hc : join.condition with
      | none =>
        rw [hc] at h
        exact (Returns.throw h).elim
      | some condition =>
        rw [hc] at h
        obtain ⟨rows, v, hrows, h⟩ := Returns.bind h
        obtain ⟨rfl, rfl⟩ := Returns.pure h
        have hm := (restoring env).outer_joinRows (join.kind == .left) right left.rows fun row =>
          (restoring env).outer_condition (evaluate_moves_restored env condition) (.ofRow row)
        exact ⟨Moves.returns hm hrows, Table.joinRows_returns hrows⟩

/-- What holds of the source and is kept by every join holds of all joins. -/
theorem Pipeline.joined_returns {P : Table → State → Prop} {source : Eval Table}
    {joins : List (Table → Eval Table)} {s t : State} {table : Table}
    (hs : ∀ first u, Returns source s first u → P first u)
    (hj : ∀ join ∈ joins, ∀ left next u v, P left u → Returns (join left) u next v → P next v)
    (h : Returns (joined source joins) s table t) : P table t := by
  obtain ⟨first, u, hf, h⟩ := Returns.bind h
  exact Returns.foldlM (hs first u hf) hj h

/-! ## From the rows to the results -/

variable {query : Select} {source : Eval Table} {s t : State}

variable (env) in
theorem restores_option (expr? : Option Expr) (meaning : Meaning)
    (h : expr?.map (evaluate env) = some meaning) (context : Context) :
    (meaning context).Moves State.Restored :=
  (restoring env).outer_of_option (fun expr _ _ => evaluate_moves_restored env expr)
    (fun _ _ => trivial) meaning h context

variable (env) in
theorem restores_columns (columns : List SelectColumn) :
    ∀ meaning ∈ columns.map (fun column => evaluate env column.expr), ∀ context,
      (meaning context).Moves State.Restored := by
  intro meaning hm
  obtain ⟨column, _, rfl⟩ := List.mem_map.mp hm
  exact evaluate_moves_restored env column.expr

variable (env) in
theorem restores_projected (columns : List SelectColumn) (name : String)
    (fields : List String) (rows : List Row) :
    (Table.project name fields rows fun row => Clause.rowValues
      (columns.map fun column => evaluate env column.expr) (.ofRow row)).Moves State.Restored := by
  have hvalues := (restoring env).outer_rowValues (restores_columns env columns)
  refine (restoring env).outer_bind ((restoring env).outer_mapM rows fun row _ => ?_)
    fun _ => (restoring env).outer_pure _
  refine (restoring env).outer_bind (hvalues (.ofRow row)) fun values => ?_
  split
  · exact (restoring env).outer_pure _
  · exact (restoring env).outer_throw _

/-- The condition in `where` lets some of the joined rows through. -/
theorem filtered_returns {table : Table}
    (h : Returns ((query.parts env).filtered source) s table t) :
    ∃ joined u, Returns (Pipeline.joined source (query.parts env).joins) s joined u ∧
      u.Restored t ∧ table.name = joined.name ∧ ∀ row ∈ table.rows, row ∈ joined.rows := by
  obtain ⟨joined, u, hj, h⟩ := Returns.bind h
  have hm := (restoring env).outer_filter joined (restores_option env query.filter)
  refine ⟨joined, u, hj, Moves.returns hm h, ?_⟩
  change Returns (Clause.filter (query.filter.map (evaluate env)) joined) u table t at h
  cases hf : query.filter with
  | none =>
    rw [hf] at h
    obtain ⟨rfl, rfl⟩ := Returns.pure h
    exact ⟨rfl, fun row hr => hr⟩
  | some condition =>
    rw [hf] at h
    obtain ⟨kept, v, hk, h⟩ := Returns.bind h
    obtain ⟨rfl, rfl⟩ := Returns.pure h
    exact ⟨rfl, Returns.keepM hk⟩

/-- The innermost frame has the result for its only table, and all rows belong to it. -/
structure Projected (u t : State) (result : Table) : Prop where
  scope : t.scope = u.scope.rebind result
  groupSource : t.groupSource = u.groupSource
  rows : ∀ row ∈ result.rows, row.From (· = result.name)

theorem project_returns {fields : List String} {columns : List SelectColumn} {table result : Table}
    (h : Returns (Clause.project fields (columns.map fun column => evaluate env column.expr) table)
      s result t) : Projected s t result := by
  obtain ⟨projected, u, hp, h⟩ := Returns.bind h
  obtain ⟨_, v, hb, h⟩ := Returns.bind h
  obtain ⟨rfl, rfl⟩ := Returns.pure h
  have hr : s.Restored u := Moves.returns (restores_projected env columns _ _ _) hp
  obtain ⟨rows, w, hrows, hp⟩ := Returns.bind hp
  obtain ⟨rfl, rfl⟩ := Returns.pure hp
  rw [Returns.onScope hb]
  refine ⟨by rw [hr.scope], hr.groupSource, fun row hm => ?_⟩
  obtain ⟨before, _, _, _, hrow⟩ := Returns.mapM hrows row hm
  obtain ⟨values, _, _, hrow⟩ := Returns.bind hrow
  split at hrow
  · next made hmade =>
    obtain ⟨rfl, -⟩ := Returns.pure hrow
    exact Row.from_ofValues (P := (· = table.name)) rfl hmade
  · exact (Returns.throw hrow).elim

/-- The rows of a group are rows of the table, and its key row has columns of such a row. -/
theorem groups_returns {P : String → Prop} {functions : Registry} {keys : List Expr}
    {columns : List SelectColumn} {table : Table} {groups : List Group}
    (hp : ∀ row ∈ table.rows, row.From P)
    (h : Returns (Clause.groups functions keys columns table) s groups t) :
    t = s ∧ ∀ group ∈ groups, group.From P := by
  obtain ⟨hr, ht⟩ := Returns.reading h
  refine ⟨ht, ?_⟩
  obtain ⟨refs, _, hr⟩ := exists_ok_of_bind hr
  obtain ⟨_, _, hr⟩ := exists_ok_of_bind hr
  refine from_groupRows hp (fun row hrow cells hc cell hm => ?_) hr
  obtain ⟨ref, _, hcell⟩ := exists_mem_of_mapM hc cell hm
  exact hp row hrow cell.1 (Scope.resolve_ok hcell).2

theorem groupTable_returns {name : String} {fields : List String} {columns : List SelectColumn}
    {groups : List Group} {projected : Table}
    (h : Returns (Clause.groupTable name fields
      (columns.map fun column => evaluate env column.expr) groups) s projected t) :
    s.Restored t ∧ projected.name = name ∧ ∀ row ∈ projected.rows, row.From (· = name) := by
  have hm := (restoring env).outer_groupTable name fields groups
    (restores_columns env columns)
  refine ⟨Moves.returns hm h, ?_⟩
  obtain ⟨rows, u, hrows, h⟩ := Returns.bind h
  obtain ⟨rfl, rfl⟩ := Returns.pure h
  refine ⟨rfl, fun row hr => ?_⟩
  obtain ⟨group, _, _, _, hrow⟩ := Returns.mapM hrows row hr
  obtain ⟨values, _, _, hrow⟩ := Returns.bind hrow
  exact Row.from_ofValues (P := (· = name)) rfl (Returns.ofExcept hrow).1

/-- The result has some of the rows of the table, and all else that the table has. -/
def Table.LeftWith (table result : Table) : Prop :=
  ∃ rows, result = table.withRows rows ∧ ∀ row ∈ rows, row ∈ table.rows

theorem Table.LeftWith.refl (table : Table) : table.LeftWith table :=
  ⟨table.rows, rfl, fun _ hrow => hrow⟩

/-- The frame is rebound once more when `having` has kept some of the rows. -/
theorem having_returns {condition : Option Expr} {groups : List Group} {projected result : Table}
    (h : Returns (Clause.having (condition.map (evaluate env)) groups projected) s result t) :
    t.scope = s.scope.rebind result ∧ t.groupSource = s.groupSource ∧
      projected.LeftWith result := by
  cases condition with
  | none =>
    obtain ⟨_, u, hb, h⟩ := Returns.bind h
    obtain ⟨rfl, rfl⟩ := Returns.pure h
    rw [Returns.onScope hb]
    exact ⟨rfl, rfl, .refl _⟩
  | some condition =>
    obtain ⟨kept, u, hk, h⟩ := Returns.bind h
    obtain ⟨_, v, hb, h⟩ := Returns.bind h
    obtain ⟨rfl, rfl⟩ := Returns.pure h
    rw [Returns.onScope hb]
    have hc := (restoring env).outer_condition (evaluate_moves_restored env condition)
    have hm := (restoring env).outer_keepM (projected.rows.zip groups) fun pair =>
      hc (.ofGroup pair.1 pair.2.rows)
    obtain ⟨hscope, hgroup, w, hkept⟩ := Returns.overProjection hm hk
    refine ⟨?_, hgroup, kept.map (·.1), rfl, fun row hrow => ?_⟩
    · show u.scope.rebind _ = s.scope.rebind _
      rw [hscope]
      exact congrArg s.scope.replace (s.scope.innermost.rebound_rebound _ rfl)
    · obtain ⟨pair, hp, rfl⟩ := List.mem_map.mp hrow
      exact (List.of_mem_zip (Returns.keepM hkept pair hp)).1

/-- The select list has made the results and rebound the frame to them. -/
theorem selected_returns {result : Table}
    (h : Returns ((query.parts env).selected env query source) s result t) :
    ∃ table u, Returns ((query.parts env).filtered source) s table u ∧ Projected u t result := by
  obtain ⟨table, u, ht, h⟩ := Returns.bind h
  refine ⟨table, u, ht, ?_⟩
  split at h
  · exact project_returns h
  · unfold Clause.group at h
    obtain ⟨groups, v, hg, rest⟩ := Returns.bind h
    obtain ⟨projected, w, hp, rest⟩ := Returns.bind rest
    have hv : v = u := (Returns.reading hg).2
    rw [hv] at hp
    obtain ⟨hr, hn, hrows⟩ := groupTable_returns hp
    obtain ⟨hs, hgs, kept, rfl, hkept⟩ := having_returns rest
    refine ⟨by rw [hs, hr.scope], hgs.trans hr.groupSource, fun row hm => ?_⟩
    show row.From (· = projected.name)
    rw [hn]
    exact hrows row (hkept row hm)

theorem ordered_returns {result : Table}
    (h : Returns ((query.parts env).ordered env query source) s result t) :
    ∃ selected, Returns ((query.parts env).selected env query source) s selected t := by
  obtain ⟨selected, u, hs, h⟩ := Returns.bind h
  split at h
  · obtain ⟨rfl, rfl⟩ := Returns.pure h
    exact ⟨_, hs⟩
  · unfold Clause.order at h
    split at h
    · exact (Returns.throw h).elim
    · obtain ⟨-, rfl⟩ := Returns.reading h
      exact ⟨selected, hs⟩

theorem skipped_returns {result : Table}
    (h : Returns ((query.parts env).skipped env query source) s result t) :
    ∃ ordered u, Returns ((query.parts env).ordered env query source) s ordered u ∧
      u.Restored t := by
  obtain ⟨ordered, u, ho, h⟩ := Returns.bind h
  exact ⟨ordered, u, ho, Moves.returns
    ((restoring env).outer_offset ordered (restores_option env query.offset)) h⟩

end TableQuery
