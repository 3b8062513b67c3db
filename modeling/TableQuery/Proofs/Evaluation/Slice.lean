import Mathlib
import TableQuery.Proofs.Evaluation.Same
import TableQuery.Proofs.Evaluation.Values

/-! # Slices of a result

Offset and limit come behind all other clauses. Whatever they are made of, they cut a slice out of
the rows that the query has without them, so pages of one size make up all rows. -/

namespace TableQuery

open Eval

variable {env : Environment} {query : Select} {ref : TableRef} {s t u v w : State}
  {result : Table} {offset limit : Option Expr} {o l : Option Nat}

namespace Eval

variable {α : Type}

/-- Nothing happens behind a failure. -/
theorem runFrom_bind_error {act : Eval α} {e : QueryError}
    (h : (act.runFrom s).1 = .error e) (next : α → Eval α) :
    (act >>= next).runFrom s = act.runFrom s := by
  rw [runFrom_bind]
  generalize act.runFrom s = run at h ⊢
  obtain ⟨outcome, t⟩ := run
  cases h
  rfl

end Eval

/-! ## Slices of rows -/

namespace Table

variable (table : Table)

/-- The rows from an offset on, from the first row without one, and at most as many as a limit
allows. -/
def slice (offset limit : Option Nat) : Table :=
  let start := offset.getD 0
  let stop := (limit.map (start + ·)).getD table.rows.length
  table.withRows (table.rows.extract start (min stop table.rows.length))

theorem slice_skip (o : Option Nat) : table.slice o none = table.skip (o.getD 0) := by
  have hrows : (table.rows.drop (o.getD 0)).take (table.rows.length - o.getD 0) =
      table.rows.drop (o.getD 0) := List.take_of_length_le (by simp)
  simp only [slice, skip, Option.map_none, Option.getD_none, Nat.min_self, hrows]

theorem slice_take (o : Option Nat) (n : Nat) :
    table.slice o (some n) = (table.slice o none).take n := by
  have hrows : (table.rows.drop (o.getD 0)).take
      (min (o.getD 0 + n) table.rows.length - o.getD 0) = (table.rows.drop (o.getD 0)).take n := by
    rw [List.take_eq_take_iff, List.length_drop]
    omega
  rw [slice_skip]
  simp only [slice, skip, take, withRows, Option.map_some, Option.getD_some, hrows]

/-- Pages of one size make up the rows, if there are enough of them. -/
theorem pages_rows {k n : Nat} (h : table.rows.length ≤ n * k) :
    (List.range n).flatMap (fun i => (table.slice (some (i * k)) (some k)).rows) = table.rows := by
  have hpages : ∀ m, (List.range m).flatMap (fun i => (table.rows.drop (i * k)).take k) =
      table.rows.take (m * k) := by
    intro m
    induction m with
    | zero => simp
    | succ m ih => simp [List.range_succ, ih, Nat.succ_mul, List.take_add]
  calc (List.range n).flatMap (fun i => (table.slice (some (i * k)) (some k)).rows)
      = (List.range n).flatMap (fun i => (table.rows.drop (i * k)).take k) := by
        simp only [slice_take, slice_skip, take, skip, withRows, Option.getD_some]
    _ = table.rows.take (n * k) := hpages n
    _ = table.rows := List.take_of_length_le h

end Table

/-! ## Row counts -/

namespace Clause

/-- What the expression of a clause comes to as a number of rows, and the state it leaves. A clause
that is not there asks for nothing. -/
inductive Counts (env : Environment) (clause : SliceClause) :
    Option Expr → State → Option Nat → State → Prop where
  | absent (s : State) : Counts env clause none s none s
  | given {expr : Expr} {n : Nat} {s t : State}
    (h : Returns (rowCount clause (TableQuery.evaluate env expr)) s n t) :
    Counts env clause (some expr) s (some n) t

theorem Counts.offset_returns (h : Counts env .offset offset s o t) (table : Table) :
    Returns (Clause.offset (offset.map (evaluate env)) table) s (table.slice o none) t := by
  rw [table.slice_skip]
  cases h with
  | absent => rfl
  | given h => exact runFrom_bind_ok h

theorem Counts.limit_returns (h : Counts env .limit limit s l t) (table : Table) (o : Option Nat) :
    Returns (Clause.limit (limit.map (evaluate env)) (table.slice o none)) s (table.slice o l)
      t := by
  cases h with
  | absent => rfl
  | given h =>
    rw [table.slice_take]
    exact runFrom_bind_ok h

/-- A numeral counts as the natural number it stands for. -/
theorem counts_literal (clause : SliceClause) {x : Number} {n : Nat} (h : x.toNat? = some n)
    (pos : Position) (s : State) :
    Counts env clause (some (.literal pos (.number x))) s (some n) s := by
  refine .given ?_
  have hv : Returns (((evaluate env (.literal pos (.number x))) .none).mapError (.slice clause)) s
      (.number x) s := by
    simp only [evaluate]
    rfl
  refine (runFrom_bind_ok hv).trans ?_
  simp only [Value.number?, Option.bind_some, h]
  rfl

end Clause

/-! ## Queries -/

namespace Select

/-- Offset and limit go on where the query without them ends, in its own frame. -/
theorem pipeline_sliced (env : Environment) (hs : query.source = some ref)
    (ho : query.offset = none) (hl : query.limit = none) (offset limit : Option Expr) :
    Select.pipeline env { query with offset, limit } =
      (query.pipeline env >>= fun table => Clause.offset (offset.map (evaluate env)) table >>=
        Clause.limit (limit.map (evaluate env))) := by
  have hsource : ({ query with offset, limit } : Select).source = some ref := hs
  by_cases hstar : query.star = true
  · have hlist : ({ query with offset, limit } : Select).star = true := hstar
    rw [pipeline_star hstar, pipeline_star hlist]
    rfl
  · have hplain : query.star = false := Bool.eq_false_iff.mpr hstar
    have hlist : ({ query with offset, limit } : Select).star = false := hplain
    rw [pipeline_from hplain hs, pipeline_from hlist hsource]
    by_cases hh : (query.having.isSome && query.groupBy.isEmpty) = true
    · rw [if_pos hh, if_pos hh]
      rfl
    · rw [if_neg hh, if_neg hh]
      simp only [Pipeline.skipped, parts, ho, hl, Option.map_none, Clause.offset, Clause.limit,
        bind_pure, bind_assoc]
      rfl

/-- Offset and limit take the rows `o` to `o + l` of what a query returns without them, whatever
expressions come to `o` and `l` in its own frame; so pages of `k` rows make up the result, and a
query that fails without offset and limit fails in the same way with them. -/
theorem pages_make_up_result (hs : query.source = some ref) (ho : query.offset = none)
    (hl : query.limit = none) (s : State) :
    (∀ result t, Returns (evaluateSelect env query) s result t → ∃ u,
      Returns (query.pipeline env) s.opened result u ∧
      (∀ offset limit o l v w, Clause.Counts env .offset offset u o v →
        Clause.Counts env .limit limit v l w →
        ∃ t, Returns (evaluateSelect env { query with offset, limit }) s (result.slice o l) t) ∧
      ∀ k n, result.rows.length ≤ n * k → ∀ offsets limits : Nat → Expr,
        (∀ i < n, ∃ v w, Clause.Counts env .offset (offsets i) u (some (i * k)) v ∧
          Clause.Counts env .limit (limits i) v (some k) w) →
        ∃ pages : Nat → Table, (∀ i < n, (pages i).name = result.name ∧
            (pages i).fields = result.fields ∧
            ∃ t, Returns (evaluateSelect env
              { query with offset := offsets i, limit := limits i }) s (pages i) t) ∧
          (List.range n).flatMap (fun i => (pages i).rows) = result.rows) ∧
    ∀ e t, (evaluateSelect env query).runFrom s = (.error e, t) → ∀ offset limit,
      (evaluateSelect env { query with offset, limit }).runFrom s = (.error e, t) := by
  have hsliced (offset limit : Option Expr) := pipeline_sliced env hs ho hl offset limit
  refine ⟨fun result t h => ?_, fun e t h offset limit => ?_⟩
  · rw [evaluateSelect_eq] at h
    obtain ⟨u, hu⟩ := Returns.inChildScope h
    have hslice : ∀ offset limit o l v w, Clause.Counts env .offset offset u o v →
        Clause.Counts env .limit limit v l w →
        ∃ t, Returns (evaluateSelect env { query with offset, limit }) s (result.slice o l) t := by
      intro offset limit o l v w hoff hlim
      rw [evaluateSelect_eq, hsliced]
      exact ⟨_, Returns.closed <| (runFrom_bind_ok hu).trans <|
        (runFrom_bind_ok (hoff.offset_returns result)).trans (hlim.limit_returns result o)⟩
    refine ⟨u, hu, hslice, fun k n hn offsets limits hcounts => ?_⟩
    refine ⟨fun i => result.slice (some (i * k)) (some k), fun i hi => ⟨rfl, rfl, ?_⟩,
      result.pages_rows hn⟩
    obtain ⟨v, w, hoff, hlim⟩ := hcounts i hi
    exact hslice _ _ _ _ v w hoff hlim
  · have he : ((query.pipeline env).runFrom s.opened).1 = .error e := by
      rw [evaluateSelect_eq] at h
      exact congrArg Prod.fst h
    rw [evaluateSelect_eq] at h ⊢
    rw [← h, hsliced]
    exact runFrom_inChildScope_congr (runFrom_bind_error he _)

/-- Three texts on two pages, the second one half empty. -/
theorem three_texts_on_two_pages :
    ∃ (query : Select) (ref : TableRef) (s : State) (result : Table) (offsets : Nat → Expr)
      (count : Expr), query.source = some ref ∧ query.offset = none ∧ query.limit = none ∧
      result.valueRows = [[.text "p"], [.text "q"], [.text "r"]] ∧
      ∃ pages : Nat → Table, (∀ i < 2, (pages i).name = result.name ∧
          (pages i).fields = result.fields ∧
          ∃ t, Returns (evaluateSelect ⟨.standard, .standard⟩
            { query with offset := offsets i, limit := count }) s (pages i) t) ∧
        (List.range 2).flatMap (fun i => (pages i).rows) = result.rows := by
  let ref : TableRef := ⟨.start, .table "t", some "a"⟩
  let query : Select := ⟨.start, false, [⟨.column ⟨.start, some "a", "x"⟩, none⟩], some ref, [],
    none, [], none, [⟨⟨.start, some "a", "x"⟩, .ascending⟩], none, none⟩
  let s : State := ⟨.ofRoot (Frame.empty.setTable "t" ⟨"t", ["x"], ["q", "r", "p"].map fun text =>
    ⟨[("t", 0)], [⟨"t", "x", "x", 0⟩], [.text text]⟩⟩), none, 0⟩
  let number (n : Nat) : Expr := .literal .start (.number (.ofNat n))
  let result : Table := ⟨"t", ["x"], ["p", "q", "r"].map fun text =>
    ⟨[("t", 0)], [⟨"t", "x", "x", 0⟩], [.text text]⟩⟩
  have hr : Returns (evaluateSelect ⟨.standard, .standard⟩ query) s result
      ((evaluateSelect ⟨.standard, .standard⟩ query).runFrom s).2 := Prod.ext (by cbv) rfl
  have hsource : query.source = some ref := rfl
  obtain ⟨u, -, -, hpages⟩ := (pages_make_up_result hsource rfl rfl s).1 _ _ hr
  refine ⟨query, ref, s, result, fun i => number (i * 2), number 2, rfl, rfl, rfl, rfl, ?_⟩
  refine hpages 2 2 (by decide) (fun i => number (i * 2)) (fun _ => number 2) fun i hi => ?_
  have hnat : (Number.ofNat (i * 2)).toNat? = some (i * 2) ∧
      (Number.ofNat 2).toNat? = some 2 := by
    revert i
    decide
  exact ⟨u, u, Clause.counts_literal .offset hnat.1 .start u,
    Clause.counts_literal .limit hnat.2 .start u⟩

end Select

end TableQuery
