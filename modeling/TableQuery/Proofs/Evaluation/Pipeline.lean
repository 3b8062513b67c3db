import TableQuery.Proofs.Evaluation.Uniform

/-! # Uniform tables through a query

The guarantees of the clauses put together: a query reads uniform tables, lays their rows out side
by side, and makes a uniform table of them in its select list. An induction over trees then gives
the guarantee of every expression and every query. -/

namespace TableQuery

open Eval

/-! ## From item and joins -/

/-- The table is uniform, and there are states in which the reference stands for it. -/
structure TableRef.Reads (env : Environment) (joined : Bool) (ref : TableRef) (table : Table) :
    Prop where
  uniform : table.Uniform
  returned : ∃ s t : State, s.Uniform ∧ Returns (evaluateTableRef env joined ref) s table t

/-- What a from item and some joins read, table after table. -/
inductive Items (env : Environment) (ref : TableRef) : List Join → List Table → Prop where
  | source {item : Table} (hi : ref.Reads env false item) : Items env ref [] [item]
  | join {joins : List Join} {items : List Table} {join : Join} {item : Table}
    (h : Items env ref joins items) (hi : join.table.Reads env true item) :
    Items env ref (joins ++ [join]) (items ++ [item])

/-- The rows of the table are rows of a from item and some joins side by side. -/
def Table.Joins (env : Environment) (ref : TableRef) (joins : List Join) (table : Table) : Prop :=
  ∃ items, Items env ref joins items ∧ table.LaidOut items

theorem Table.Joins.indexed {env : Environment} {ref : TableRef} {joins : List Join}
    {table : Table} (h : table.Joins env ref joins) : ∀ row ∈ table.rows, row.Indexed := by
  obtain ⟨items, _, hlaid⟩ := h
  exact hlaid.indexed

section

variable {env : Environment} {tidy : Prop}

theorem evaluateTableRef_ensures (joined : Bool) {ref : TableRef}
    (h : ∀ inner, ref.source = .subquery inner →
      (evaluateSelect env inner).Ensures tidy Table.Uniform) :
    (evaluateTableRef env joined ref).Ensures tidy (ref.Reads env joined) := by
  suffices hu : (evaluateTableRef env joined ref).Ensures tidy Table.Uniform from
    hu.refine fun s _ t hs hr ht => ⟨ht, s, t, hs, hr⟩
  have hrows : (ref.rows env joined).Ensures tidy Table.Uniform := by
    obtain ⟨pos, source | query, label⟩ := ref
    · exact Clause.boundTable_ensures joined pos source label
    · exact Clause.derivedTable_ensures (h query rfl) pos label
  rw [evaluateTableRef_eq]
  exact hrows.bind fun table ht => Clause.bindTable_ensures ref.label ht

/-- The guarantees that a query needs of its expressions and of the queries in its from and
joins. -/
abbrev Select.PartsSound (env : Environment) (tidy : Prop) (query : Select) : Prop :=
  query.PartsHold (fun expr => Meaning.Sound tidy (evaluate env expr))
    fun inner => (evaluateSelect env inner).Ensures tidy Table.Uniform

namespace Select

variable {query : Select} (h : query.PartsSound env tidy)
include h

theorem PartsSound.join {join : Join} (hj : join ∈ query.joins) {ref : TableRef}
    {before : List Join} {left : Table} (hl : left.Joins env ref before) :
    (evaluateJoin env join left).Ensures tidy (Table.Joins env ref (before ++ [join])) := by
  obtain ⟨items, hitems, hlaid⟩ := hl
  have hright := evaluateTableRef_ensures true (h.joins join hj)
  have hcondition : ∀ meaning, join.condition.map (evaluate env) = some meaning →
      meaning.Sound tidy := by
    intro meaning hm
    obtain ⟨expr, he, rfl⟩ := Option.map_eq_some_iff.mp hm
    exact h.conditions join hj expr he
  rw [evaluateJoin_eq]
  refine (Clause.join_ensures join.pos join.kind hlaid hright (fun _ hi => hi.uniform)
    hcondition).mono fun table ht => ?_
  obtain ⟨item, hi, htable⟩ := ht
  exact ⟨items ++ [item], hitems.join hi, htable⟩

/-- After some of the joins the rows are laid out item by item. -/
theorem PartsSound.joined {ref : TableRef} (hs : query.source = some ref) {joins : List Join}
    (hj : ∀ join ∈ joins, join ∈ query.joins) :
    (Pipeline.joined (evaluateTableRef env false ref) (joins.map (evaluateJoin env))).Ensures tidy
      (Table.Joins env ref joins) := by
  refine (evaluateTableRef_ensures false (h.source ref hs)).bind fun first hf => ?_
  rw [List.foldlM_map]
  have hfirst : first.Joins env ref [] := ⟨[first], .source hf, Table.uniform_iff.mp hf.uniform⟩
  have hstep : ∀ before, ∀ join ∈ joins, ∀ left : Table, left.Joins env ref before →
      (evaluateJoin env join left).Ensures tidy (Table.Joins env ref (before ++ [join])) :=
    fun before join hm left hl => PartsSound.join h (hj join hm) hl
  exact Ensures.foldlM hstep hfirst

omit h in
theorem sound_of_option {expr? : Option Expr}
    (he : ∀ expr, expr? = some expr → Meaning.Sound tidy (evaluate env expr)) :
    ∀ meaning, expr?.map (evaluate env) = some meaning → meaning.Sound tidy := by
  intro meaning hm
  obtain ⟨expr, hs, rfl⟩ := Option.map_eq_some_iff.mp hm
  exact he expr hs

theorem PartsSound.list : ∀ meaning ∈ (query.parts env).columns, meaning.Sound tidy := by
  intro meaning hm
  obtain ⟨column, hc, rfl⟩ := List.mem_map.mp hm
  exact h.columns column hc

theorem PartsSound.filtered {ref : TableRef} (hs : query.source = some ref) :
    ((query.parts env).filtered (evaluateTableRef env false ref)).Ensures tidy
      (Table.Joins env ref query.joins) := by
  refine (h.joined hs fun _ hj => hj).bind fun table ht => ?_
  obtain ⟨items, hitems, hlaid⟩ := ht
  exact (Clause.filter_ensures hlaid (sound_of_option h.filter)).mono fun kept hk =>
    ⟨items, hitems, hk⟩

theorem PartsSound.groupTable (name : String) {groups : List Group}
    (hg : ∀ group ∈ groups, group.Indexed) :
    (Clause.groupTable name (Clause.outputNames query.columns) (query.parts env).columns
      groups).Ensures tidy Table.Uniform :=
  Clause.groupTable_ensures name (by simp [Clause.outputNames, parts]) h.list hg

theorem PartsSound.selected {ref : TableRef} (hs : query.source = some ref) :
    ((query.parts env).selected env query (evaluateTableRef env false ref)).Ensures tidy
      Table.Uniform := by
  refine (h.filtered hs).bind fun table ht => ?_
  split
  · exact Clause.project_ensures (by simp [Clause.outputNames, parts]) h.list ht.indexed
  · exact Clause.group_ensures query.groupBy (by simp [parts]) h.list (sound_of_option h.having)
      ht.indexed

theorem PartsSound.ordered {ref : TableRef} (hs : query.source = some ref) :
    ((query.parts env).ordered env query (evaluateTableRef env false ref)).Ensures tidy
      Table.Uniform := by
  refine (h.selected hs).bind fun table ht => ?_
  split
  · exact .pure ht
  · next hk => exact Clause.order_ensures (by simpa using hk) ht

theorem PartsSound.skipped {ref : TableRef} (hs : query.source = some ref) :
    ((query.parts env).skipped env query (evaluateTableRef env false ref)).Ensures tidy
      Table.Uniform :=
  (h.ordered hs).bind fun _ ht => Clause.offset_ensures ht (sound_of_option h.offset)

theorem PartsSound.evaluates : (evaluateSelect env query).Ensures tidy Table.Uniform := by
  rw [evaluateSelect_eq]
  refine Ensures.inChildScope ?_
  cases hstar : query.star with
  | true =>
    rw [pipeline_star hstar]
    exact .throw fun _ => id
  | false =>
    cases hsource : query.source with
    | none =>
      rw [pipeline_single hstar hsource]
      exact Clause.single_ensures (by simp [Clause.outputNames]) h.list
    | some ref =>
      rw [pipeline_from hstar hsource]
      split
      · exact .throw fun _ => id
      · exact (h.skipped hsource).bind fun _ ht =>
          Clause.limit_ensures ht (sound_of_option h.limit)

end Select

/-! ## All trees -/

/-- If the trees are tidy, every `case` in the expression is balanced; then the guarantee holds. -/
def Expr.Guaranteed (env : Environment) (tidy : Prop) (expr : Expr) : Prop :=
  (tidy → expr.Everywhere Expr.Balanced) → Meaning.Sound tidy (evaluate env expr)

def Select.Guaranteed (env : Environment) (tidy : Prop) (query : Select) : Prop :=
  (tidy → query.Everywhere Expr.Balanced) → (evaluateSelect env query).Ensures tidy Table.Uniform

theorem Select.partsSound {query : Select}
    (h : query.PartsHold (Expr.Guaranteed env tidy) (Select.Guaranteed env tidy))
    (hb : tidy → query.Everywhere Expr.Balanced) : query.PartsSound env tidy := by
  have hparts := fun ht => (hb ht).parts
  exact
    { columns := fun column hc => h.columns column hc fun ht => (hparts ht).columns column hc
      source := fun ref hr inner hs =>
        h.source ref hr inner hs fun ht => (hparts ht).source ref hr inner hs
      joins := fun join hj inner hs =>
        h.joins join hj inner hs fun ht => (hparts ht).joins join hj inner hs
      conditions := fun join hj expr he =>
        h.conditions join hj expr he fun ht => (hparts ht).conditions join hj expr he
      filter := fun expr he => h.filter expr he fun ht => (hparts ht).filter expr he
      having := fun expr he => h.having expr he fun ht => (hparts ht).having expr he
      limit := fun expr he => h.limit expr he fun ht => (hparts ht).limit expr he
      offset := fun expr he => h.offset expr he fun ht => (hparts ht).offset expr he }

theorem Expr.Guaranteed.sound {expr child : Expr} (h : child.Guaranteed env tidy)
    (hb : tidy → expr.Everywhere Expr.Balanced) (hc : child ∈ expr.children) :
    Meaning.Sound tidy (evaluate env child) := h fun ht => (hb ht).child hc

theorem sound_of_list {exprs : List Expr}
    (h : ∀ expr ∈ exprs, Meaning.Sound tidy (evaluate env expr)) :
    ∀ meaning ∈ exprs.map (evaluate env), meaning.Sound tidy := by
  intro meaning hm
  obtain ⟨expr, he, rfl⟩ := List.mem_map.mp hm
  exact h expr he

theorem guaranteed_column (ref : ColumnRef) : (Expr.column ref).Guaranteed env tidy := by
  intro _ context hc
  simp only [evaluate]
  split
  · exact .throw fun _ => id
  · next row hr =>
    refine .reading (fun _ _ _ _ => trivial) fun _ scope _ => ?_
    exact (scope.clean_resolve ref (hc.row row hr)).map _

/-- If the trees are tidy, the functions at hand are faultless, too; no more is known of them. -/
theorem guaranteed_steps (hf : tidy → env.functions.Faultless) :
    TreeSteps (Expr.Guaranteed env tidy) (Select.Guaranteed env tidy) where
  literal _ v _ _ _ := by
    simp only [evaluate]
    exact .pure trivial
  column := guaranteed_column
  binary pos op left right hl hr hb context hc := by
    have hleft := hl.sound hb (by simp [Expr.children]) context hc
    have hright := hr.sound hb (by simp [Expr.children]) context hc
    simp only [evaluate]
    exact hleft.bind fun a _ => hright.bind fun b _ =>
      .ofExcept (fun _ _ => trivial) fun _ => Value.clean_binary op a b
  logical pos op left right hl hr hb := by
    have hleft := hl.sound hb (by simp [Expr.children])
    have hright := hr.sound hb (by simp [Expr.children])
    simp only [evaluate]
    exact Meaning.connective_sound op hleft hright
  not pos operand ho hb context hc := by
    have hoperand := ho.sound hb (by simp [Expr.children]) context hc
    simp only [evaluate]
    exact hoperand.bind fun v _ => .ofExcept (fun _ _ => trivial) fun _ => v.clean_not
  negate pos operand ho hb context hc := by
    have hoperand := ho.sound hb (by simp [Expr.children]) context hc
    simp only [evaluate]
    exact hoperand.bind fun v _ => .ofExcept (fun _ _ => trivial) fun _ => v.clean_negate
  between pos value low high hv hl hh hb context hc := by
    have hvalue := hv.sound hb (by simp [Expr.children]) context hc
    have hlow := hl.sound hb (by simp [Expr.children]) context hc
    have hhigh := hh.sound hb (by simp [Expr.children]) context hc
    simp only [evaluate]
    exact hvalue.bind fun v _ => hlow.bind fun a _ => hhigh.bind fun b _ =>
      .ofExcept (fun _ _ => trivial) fun _ => v.clean_between a b
  member pos value items hv hi hq hb context hc := by
    have hvalue := hv.sound hb (by simp [Expr.children]) context hc
    have hitems := fun item (hm : item ∈ items) =>
      (hi item hm).sound hb (by simp [Expr.children, hm]) context hc
    have hqueries : ∀ query, .subquery query ∈ items →
        (evaluateSelect env query).Ensures tidy Table.Uniform := by
      intro query hm
      have hitem : .subquery query ∈ (Expr.member pos value items).children :=
        List.mem_cons_of_mem _ hm
      exact hq query hm fun ht => ((hb ht).child hitem).query rfl
    simp only [evaluate]
    exact hvalue.bind fun v _ => (items_ensures hitems hqueries).bind fun _ _ => .pure trivial
  like pos value pattern ignoreCase hv hp hb context hc := by
    have hvalue := hv.sound hb (by simp [Expr.children]) context hc
    have hpattern := hp.sound hb (by simp [Expr.children]) context hc
    simp only [evaluate]
    exact hvalue.bind fun v _ => hpattern.bind fun p _ =>
      .ofExcept (fun _ _ => trivial) fun _ => v.clean_like ignoreCase p
  isNull pos operand ho hb context hc := by
    have hoperand := ho.sound hb (by simp [Expr.children]) context hc
    simp only [evaluate]
    exact hoperand.bind fun v _ => .pure trivial
  case pos whens thens otherwise hw ht ho hb context hc := by
    have hwhens : ∀ meaning ∈ whens.map (evaluate env), meaning.Sound tidy :=
      sound_of_list fun expr he => (hw expr he).sound hb (by simp [Expr.children, he])
    have hthens : ∀ meaning ∈ thens.map (evaluate env), meaning.Sound tidy :=
      sound_of_list fun expr he => (ht expr he).sound hb (by simp [Expr.children, he])
    have hotherwise : ∀ meaning, otherwise.map (evaluate env) = some meaning →
        meaning.Sound tidy :=
      Select.sound_of_option fun expr he =>
        (ho expr he).sound hb (by simp [Expr.children, he])
    simp only [evaluate, evaluateEach_eq, evaluateOption_eq]
    split
    · next hlength => exact .throw fun ht => absurd (hb ht).here hlength
    · exact Meaning.firstHolding_sound hotherwise hwhens hthens context hc
  call pos callee args star ha hb := by
    have hargs : ∀ meaning ∈ args.map (evaluate env), meaning.Sound tidy :=
      sound_of_list fun expr he => (ha expr he).sound hb (by simp [Expr.children, he])
    simp only [evaluate, evaluateEach_eq]
    exact Meaning.call_sound hf pos _ star hargs
  group pos inner hi hb := by
    simp only [evaluate]
    exact hi.sound hb (by simp [Expr.children])
  existence pos query hq hb context _ := by
    have hquery := hq fun ht => (hb ht).query rfl
    simp only [evaluate]
    exact hquery.bind fun _ _ => .pure trivial
  subquery query hq hb context _ := by
    have hquery := hq fun ht => (hb ht).query rfl
    simp only [evaluate]
    exact Meaning.scalar_ensures hquery
  select query h hb := (Select.partsSound h hb).evaluates

/-- The parts of a query with balanced trees have their guarantees. -/
theorem Select.parts_sound (query : Select) (hf : tidy → env.functions.Faultless)
    (hb : tidy → query.Everywhere Expr.Balanced) : query.PartsSound env tidy :=
  Select.partsSound ((guaranteed_steps hf).parts query) hb

/-- Neither balance nor anything about functions is needed for what does not concern failures. -/
theorem Select.uniformParts (env : Environment) (query : Select) : query.PartsSound env False :=
  query.parts_sound False.elim False.elim

end

end TableQuery
