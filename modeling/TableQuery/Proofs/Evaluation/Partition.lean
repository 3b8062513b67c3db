import TableQuery.Proofs.Evaluation.Operands
import TableQuery.Proofs.Evaluation.Values

/-! # Three truth values

A condition is true, false or unknown on a row. `where` keeps the rows on which it is true, the
negated condition those on which it is false, and the test for null those on which it is unknown, so
the three of them share out the rows. -/

namespace TableQuery

open Eval

/-! ## Conditions with one answer -/

section

variable {α : Type} {condition : α → Eval Bool} {s t : State}

/-- A loop that keeps elements has asked for each of them. -/
theorem Eval.Returns.keepM_asked (hm : ∀ a, (condition a).Moves State.Restored) :
    ∀ {as kept : List α} {s t : State}, Returns (TableQuery.keepM condition as) s kept t →
      ∀ a ∈ as, ∃ u v, s.Restored u ∧ ∃ answer, Returns (condition a) u answer v
  | [], _, _, _, _ => List.forall_mem_nil _
  | first :: rest, kept, s, t, h => by
    obtain ⟨answer, u, hfirst, h⟩ := Returns.bind h
    obtain ⟨others, v, hrest, -⟩ := Returns.bind h
    have hu : s.Restored u := Moves.returns (hm first) hfirst
    refine List.forall_mem_cons.mpr ⟨⟨s, u, .refl s, answer, hfirst⟩, fun a ha => ?_⟩
    obtain ⟨w, x, hw, ha⟩ := Returns.keepM_asked hm hrest a ha
    exact ⟨w, x, hu.trans hw, ha⟩

/-- If the condition has one answer for each element, wherever the counter for labels stands, the
loop keeps the elements with the answer yes. -/
theorem Eval.keepM_returns {answer : α → Bool} : ∀ {as : List α} {s : State},
    (∀ a ∈ as, ∀ t, s.Restored t → ∃ u, t.Restored u ∧ Returns (condition a) t (answer a) u) →
      ∃ u, s.Restored u ∧ Returns (keepM condition as) s (as.filter answer) u
  | [], s, _ => ⟨s, .refl s, rfl⟩
  | first :: rest, s, h => by
    obtain ⟨u, hu, hfirst⟩ := h first List.mem_cons_self s (.refl s)
    obtain ⟨v, hv, hrest⟩ := keepM_returns fun a ha t ht =>
      h a (List.mem_cons_of_mem _ ha) t (hu.trans ht)
    refine ⟨v, hu.trans hv, ?_⟩
    rw [TableQuery.keepM, Returns, runFrom_bind_ok hfirst, runFrom_bind_ok hrest, List.filter_cons]
    rfl

end

variable {env : Environment} {query : Select} {ref : TableRef} {s t u : State}

namespace Expr

/-- The truth value of a condition on a row; unknown is none. -/
def truth (env : Environment) (s : State) (condition : Expr) (row : Row) : Option Bool :=
  match ((evaluate env condition (.ofRow row)).runFrom s).1 with
  | .ok (.boolean b) => some b
  | _ => none

variable {condition : Expr} {row : Row}

/-- Wherever the counter for labels stands, the condition has one of the three truth values. -/
def Decides (env : Environment) (s : State) (condition : Expr) (row : Row) : Prop :=
  ∀ t, s.Restored t → ∃ u, t.Restored u ∧
    Returns (evaluate env condition (.ofRow row)) t (.ofTruth (condition.truth env s row)) u

/-- A condition without queries that `where` has asked for once has a truth value. -/
theorem QueryFree.decides (h : condition.QueryFree) {answer : Bool} (hs : s.Restored t)
    (ha : Returns (Clause.condition (evaluate env condition) (.ofRow row)) t answer u) :
    condition.Decides env s row := by
  obtain ⟨v, w, hv, ha⟩ := Returns.bind ha
  obtain ⟨hholds, -⟩ := Returns.ofExcept ha
  obtain ⟨truth, htruth, -⟩ := exists_ok_of_bind hholds
  have hvalue : ∀ x, s.Restored x →
      ((evaluate env condition (.ofRow row)).runFrom x).1 = .ok v := by
    intro x hx
    rw [h.outcome (.ofRow row) (hx.scope.trans hs.scope.symm)
      (hx.groupSource.trans hs.groupSource.symm), hv]
  have hv : v = .ofTruth (condition.truth env s row) := by
    unfold Expr.truth
    rw [hvalue s (.refl s)]
    cases v with
    | null => rfl
    | boolean b => rfl
    | number n => cases htruth
    | text text => cases htruth
  intro x hx
  refine ⟨_, evaluate_moves_restored env condition (.ofRow row) x, Prod.ext ?_ rfl⟩
  rw [hvalue x hx, hv]

theorem Decides.hasValue (h : condition.Decides env s row) :
    condition.HasValue env s row (.ofTruth (condition.truth env s row)) := by
  obtain ⟨u, -, hu⟩ := h s (.refl s)
  exact ⟨s, u, .refl s, hu⟩

end Expr

/-! ## Tests of a condition -/

theorem Clause.condition_returns {meaning : Meaning} {context : Context} {v : Value} {answer : Bool}
    (h : Returns (meaning context) s v t) (hv : v.holds = .ok answer) :
    Returns (condition meaning context) s answer t := by
  rw [condition, Returns, runFrom_bind_ok h, hv]
  rfl

/-- As a condition, the test gives an answer that depends on the truth value of another one. -/
def Expr.Tests (env : Environment) (test condition : Expr) (answer : Option Bool → Bool) : Prop :=
  ∀ (context : Context) (truth : Option Bool) (s t : State),
    Returns (evaluate env condition context) s (.ofTruth truth) t →
      Returns (Clause.condition (evaluate env test) context) s (answer truth) t

namespace Expr

variable (env) (condition : Expr) (pos inner : Position)

theorem tests_self : condition.Tests env condition (· == some true) := by
  intro context truth s t h
  refine Clause.condition_returns h ?_
  rcases truth with _ | _ | _ <;> rfl

theorem tests_not : (Expr.not pos (.group inner condition)).Tests env condition
    (· == some false) := by
  intro context truth s t h
  have hnot : Returns (evaluate env (.not pos (.group inner condition)) context) s
      (.ofTruth (truth.map (! ·))) t := by
    simp only [evaluate]
    rw [Returns, runFrom_bind_ok h]
    rcases truth with _ | _ <;> rfl
  refine Clause.condition_returns hnot ?_
  rcases truth with _ | _ | _ <;> rfl

theorem tests_isNull :
    (Expr.isNull pos (.group inner condition)).Tests env condition (· == none) := by
  intro context truth s t h
  have hnull : Returns (evaluate env (.isNull pos (.group inner condition)) context) s
      (.boolean (truth == none)) t := by
    simp only [evaluate]
    rw [Returns, runFrom_bind_ok h]
    rcases truth with _ | _ <;> rfl
  exact Clause.condition_returns hnull rfl

end Expr

/-! ## The three parts -/

/-- The query with another condition in `where`. -/
def Select.filteredBy (query : Select) (condition : Expr) : Select :=
  { query with filter := some condition }

/-- With a test in `where` that depends on the truth value of a condition, the rows are kept that
the test says yes to. -/
theorem Select.filteredBy_returns {condition test : Expr} {answer : Option Bool → Bool}
    (htest : test.Tests env condition answer) {source : Eval Table} {table : Table}
    (hj : Returns (Pipeline.joined source (query.parts env).joins) s table u)
    (hd : ∀ row ∈ table.rows, condition.Decides env u row) :
    ∃ t, Returns (((query.filteredBy test).parts env).filtered source) s
      (table.withRows (table.rows.filter fun row => answer (condition.truth env u row))) t := by
  have hanswer : ∀ row ∈ table.rows, ∀ v, u.Restored v → ∃ w, v.Restored w ∧
      Returns (Clause.condition (evaluate env test) (.ofRow row)) v
        (answer (condition.truth env u row)) w := by
    intro row hrow v hv
    obtain ⟨w, hw, hr⟩ := hd row hrow v hv
    exact ⟨w, hw, htest _ _ _ _ hr⟩
  obtain ⟨t, -, hkeep⟩ := keepM_returns hanswer
  refine ⟨t, ?_⟩
  refine (runFrom_bind_ok hj).trans ?_
  exact (runFrom_bind_ok hkeep).trans rfl

/-- What `where` makes of the joined table with a condition, with its negation and with the test
whether it is null. -/
structure Select.Partition (env : Environment) (query : Select) (ref : TableRef) (s : State)
    (condition : Expr) (table : Table) (u : State) : Prop where
  joined : Returns (Pipeline.joined (evaluateTableRef env false ref) (query.parts env).joins)
    s.opened table u
  /-- On every joined row the condition is true, false or unknown. -/
  truth : ∀ row ∈ table.rows, condition.HasValue env u row (.ofTruth (condition.truth env u row))
  holds : ∃ t, Returns (((query.filteredBy condition).parts env).filtered
      (evaluateTableRef env false ref)) s.opened
    (table.withRows (table.rows.filter fun row => condition.truth env u row == some true)) t
  fails : ∀ pos inner, ∃ t,
    Returns (((query.filteredBy (.not pos (.group inner condition))).parts env).filtered
      (evaluateTableRef env false ref)) s.opened
    (table.withRows (table.rows.filter fun row => condition.truth env u row == some false)) t
  unknown : ∀ pos inner, ∃ t,
    Returns (((query.filteredBy (.isNull pos (.group inner condition))).parts env).filtered
      (evaluateTableRef env false ref)) s.opened
    (table.withRows (table.rows.filter fun row => condition.truth env u row == none)) t

/-- Three-valued partition: if `where` succeeds with a condition that has no queries in it, it
succeeds with the negation of the condition and with the test whether it is null, too. On every row
of the joined tables the condition is true, false or unknown, and the three keep the rows on which
it is true, false and unknown, each in the order of the joined tables. -/
theorem Select.where_partition {condition : Expr} (hc : condition.QueryFree) {kept : Table}
    (h : Returns (((query.filteredBy condition).parts env).filtered
      (evaluateTableRef env false ref)) s.opened kept t) :
    ∃ table u, query.Partition env ref s condition table u ∧
      kept.rows = table.rows.filter fun row => condition.truth env u row == some true := by
  obtain ⟨table, u, hj, hf⟩ := Returns.bind h
  -- `where` asks about every row, so where it succeeds the condition has a truth value on each
  have hdecides : ∀ row ∈ table.rows, condition.Decides env u row := by
    intro row hrow
    obtain ⟨rows, v, hkeep, -⟩ := Returns.bind hf
    have hmoves := (restoring env).outer_condition (evaluate_moves_restored env condition)
    obtain ⟨w, x, hw, answer, ha⟩ := hkeep.keepM_asked (fun row => hmoves (.ofRow row)) row hrow
    exact hc.decides hw ha
  obtain ⟨v, hv⟩ := filteredBy_returns (condition.tests_self env) hj hdecides
  refine ⟨table, u, ⟨hj, fun row hrow => (hdecides row hrow).hasValue, ⟨v, hv⟩, ?_, ?_⟩, ?_⟩
  · exact fun pos inner => filteredBy_returns (condition.tests_not env pos inner) hj hdecides
  · exact fun pos inner => filteredBy_returns (condition.tests_isNull env pos inner) hj hdecides
  · exact congrArg Table.rows (h.unique hv).1

/-- A null is like no pattern, and it is not unlike it either. -/
theorem Select.likeness_partition :
    ∃ (query : Select) (ref : TableRef) (s : State) (condition : Expr) (kept : Table) (t : State),
      condition.QueryFree ∧
      Returns (((query.filteredBy condition).parts ⟨.standard, .standard⟩).filtered
        (evaluateTableRef ⟨.standard, .standard⟩ false ref)) s.opened kept t ∧
      kept.valueRows = [[.text "p"]] ∧
      ∃ table u, query.Partition ⟨.standard, .standard⟩ ref s condition table u ∧
        kept.rows = table.rows.filter fun row =>
          condition.truth ⟨.standard, .standard⟩ u row == some true := by
  have hfree : (Expr.like .start (.column ⟨.start, some "a", "x"⟩) (.literal .start (.text "p"))
      false).QueryFree :=
    .intro rfl (List.forall_mem_cons.mpr ⟨.intro rfl (List.forall_mem_nil _),
      List.forall_mem_singleton.mpr (.intro rfl (List.forall_mem_nil _))⟩)
  refine ⟨⟨.start, false, [⟨.column ⟨.start, some "a", "x"⟩, none⟩],
      some ⟨.start, .table "t", some "a"⟩, [], none, [], none, [], none, none⟩,
    ⟨.start, .table "t", some "a"⟩,
    ⟨.ofRoot (Frame.empty.setTable "t" ⟨"t", ["x"],
      [Value.text "p", Value.null, Value.text "q"].map fun v =>
        ⟨[("t", 0)], [⟨"t", "x", "x", 0⟩], [v]⟩⟩), none, 0⟩,
    _, _, _, hfree, rfl, by decide, ?_⟩
  exact Select.where_partition hfree rfl

end TableQuery
