import TableQuery.Proofs.Query.Recursion

/-! # Every rule follows its plan

Carried out with the rules as answers, the plan of each rule gives what the rule gives: the same
value and the same tokens behind it, or the same failure. -/

namespace TableQuery.Grammar

section

variable {α β : Type} {m n : Nat} {answers : Answers}

/-- One step of a rule and what comes behind it. -/
theorem outcome_bind {parsed : Parsed α n} {next : Step α n → Parsed β m}
    {plan : Plan (α × Cursor)} {following : α × Cursor → Plan (β × Cursor)}
    (h : parsed.outcome = plan.run answers)
    (hn : ∀ a rest (hr : rest.length < n),
      Parsed.outcome (next ⟨a, rest, hr⟩) = (following (a, rest)).run answers) :
    Parsed.outcome (parsed >>= next) = (plan >>= following).run answers := by
  rw [Plan.run_bind, ← h]
  cases parsed with
  | error failure => rfl
  | ok step => exact hn step.value step.rest step.shorter

/-- A call and what comes behind it. -/
theorem outcome_ask (rule : Rule) {c : Cursor} {parsed : Parsed rule.Value n}
    {next : Step rule.Value n → Parsed β m} {following : rule.Value × Cursor → Plan (β × Cursor)}
    (h : parsed.outcome = rule.outcome c)
    (hn : ∀ v rest (hr : rest.length < n),
      Parsed.outcome (next ⟨v, rest, hr⟩) = (following (v, rest)).run Rule.outcome) :
    Parsed.outcome (parsed >>= next) = (Plan.ask rule c >>= following).run Rule.outcome :=
  outcome_bind (h.trans (Plan.run_ask rule c).symm) hn

/-- A call whose value is handed on. -/
theorem outcome_relay (rule : Rule) {c : Cursor} {parsed : Parsed rule.Value n}
    {next : Step rule.Value n → Parsed rule.Value m} (h : parsed.outcome = rule.outcome c)
    (hn : ∀ v rest (hr : rest.length < n),
      Parsed.outcome (next ⟨v, rest, hr⟩) = .ok (v, rest)) :
    Parsed.outcome (parsed >>= next) = (Plan.ask rule c).run Rule.outcome := by
  rw [Plan.run_ask, ← h]
  cases parsed with
  | error failure => rfl
  | ok step => exact hn step.value step.rest step.shorter

/-- A call and nothing behind it. -/
theorem outcome_last (rule : Rule) {c : Cursor} {parsed : Parsed rule.Value n}
    (h : parsed.outcome = rule.outcome c) :
    parsed.outcome = (Plan.ask rule c).run Rule.outcome := h.trans (Plan.run_ask rule c).symm

theorem outcome_refuse {c : Cursor} {next : Unit → Parsed β m}
    {following : Unit → Plan (β × Cursor)}
    (hn : Parsed.outcome (next ()) = (following ()).run answers) :
    Parsed.outcome (refuseSetOperation c >>= next) =
      (Plan.done (refuseSetOperation c) >>= following).run answers := by
  cases refuseSetOperation c with
  | error failure => rfl
  | ok _ => exact hn

end

theorem script_planned (c : Cursor) : (script c).outcome = (Plan.script c).run Rule.outcome := by
  unfold script Plan.script
  split
  · rfl
  · refine outcome_ask .statement rfl fun query c₁ _ => ?_
    exact outcome_ask .script rfl fun queries c₂ _ => rfl

theorem single_planned (c : Cursor) : (single c).outcome = (Plan.single c).run Rule.outcome := by
  unfold single Plan.single
  refine outcome_ask .statement rfl fun query c₁ _ => ?_
  dsimp only
  split
  · rfl
  · rfl

theorem statement_planned (c : Cursor) :
    (statement c).outcome = (Plan.statement c).run Rule.outcome := by
  unfold statement Plan.statement
  refine outcome_ask .select rfl fun query c₁ _ => ?_
  dsimp only
  split
  · rfl
  · exact outcome_bind rfl fun _ c₂ _ => rfl

theorem chain_planned (level : Nat) (c : Cursor) :
    (chain level c).outcome = (Plan.chain level c).run Rule.outcome := by
  unfold chain Plan.chain
  split
  · refine outcome_ask (.chain (level + 1)) rfl fun left c₁ _ => ?_
    exact outcome_relay (.chainRest level left) rfl fun _ _ _ => rfl
  · exact outcome_last .signed rfl

theorem chainRest_planned (level : Nat) (left : Expr) (c : Cursor) :
    (chainRest level left c).outcome = (Plan.chainRest level left c).run Rule.outcome := by
  unfold chainRest Plan.chainRest
  cases c with
  | nil => rfl
  | cons t rest =>
    dsimp only
    cases operatorNode? level t.kind with
    | none => rfl
    | some node =>
      refine outcome_ask (.chain (level + 1)) rfl fun right c₁ _ => ?_
      exact outcome_relay (.chainRest level (node t.pos left right)) rfl fun _ _ _ => rfl

theorem signed_planned (c : Cursor) : (signed c).outcome = (Plan.signed c).run Rule.outcome := by
  unfold signed Plan.signed
  cases c.accept? (.keyword .not) with
  | some step => exact outcome_ask .signed rfl fun e c₂ _ => rfl
  | none =>
    cases c.accept? .minus with
    | some step => exact outcome_ask .signed rfl fun e c₂ _ => rfl
    | none => exact outcome_last .tested rfl

/-- A test behind a subject: where none begins, `none` is what has been read. -/
theorem outcome_test {β : Type} {m : Nat} {subject : Expr} {c : Cursor}
    {absent : Parsed β m} {next : Step Expr c.length → Parsed β m}
    {following : Option Expr × Cursor → Plan (β × Cursor)}
    (hnone : absent.outcome = (following (none, c)).run Rule.outcome)
    (hsome : ∀ e rest (hr : rest.length < c.length),
      Parsed.outcome (next ⟨e, rest, hr⟩) = (following (some e, rest)).run Rule.outcome) :
    Parsed.outcome (match test? subject c with
      | none => absent
      | some found => found >>= next) =
      (Plan.ask (.test subject) c >>= following).run Rule.outcome := by
  rw [Plan.run_bind, Plan.run_ask]
  simp only [Rule.outcome]
  cases test? subject c with
  | none => exact hnone
  | some found =>
    cases found with
    | error failure => rfl
    | ok step => exact hsome step.value step.rest step.shorter

theorem tested_planned (c : Cursor) : (tested c).outcome = (Plan.tested c).run Rule.outcome := by
  unfold tested Plan.tested
  refine outcome_ask .called rfl fun subject c₁ _ => ?_
  dsimp only
  cases c₁.accept? (.keyword .not) with
  | some step =>
    obtain ⟨n, c₂, _⟩ := step
    refine outcome_test rfl fun e c₃ _ => ?_
    exact outcome_relay (.nullTests (.not n.pos e)) rfl fun _ _ _ => rfl
  | none =>
    refine outcome_test ?_ fun e c₂ _ => ?_
    · exact outcome_relay (.nullTests subject) rfl fun _ _ _ => rfl
    · exact outcome_relay (.nullTests e) rfl fun _ _ _ => rfl

/-- The outcome of a test that begins. -/
theorem test_outcome {subject : Expr} {c : Cursor} {found : Parsed Expr c.length}
    (h : test? subject c = some found) : (Rule.test subject).outcome c =
      Parsed.outcome (found >>= fun step => (.ok ⟨some step.value, step.rest, step.shorter⟩ :
        Parsed (Option Expr) c.length)) := by
  simp only [Rule.outcome, h]
  cases found <;> rfl

theorem test_planned (subject : Expr) (c : Cursor) :
    (Rule.test subject).outcome c = (Plan.test subject c).run Rule.outcome := by
  cases c with
  | nil =>
    simp only [Rule.outcome, test?]
    rfl
  | cons t rest =>
    obtain ⟨kind, lexeme, literal, pos⟩ := t
    cases kind with
    | keyword word =>
      cases word with
      | «in» =>
        rw [test_outcome (by rw [test?])]
        simp only [bind_assoc, pure_bind]
        exact outcome_ask .members rfl fun items c₁ _ => rfl
      | between =>
        rw [test_outcome (by rw [test?])]
        simp only [bind_assoc, pure_bind]
        refine outcome_ask (.chain sumLevel) rfl fun low c₁ _ => ?_
        refine outcome_bind rfl fun _ c₂ _ => ?_
        exact outcome_ask (.chain sumLevel) rfl fun high c₃ _ => rfl
      | like =>
        rw [test_outcome (by rw [test?])]
        simp only [bind_assoc, pure_bind]
        exact outcome_ask (.chain sumLevel) rfl fun pattern c₁ _ => rfl
      | ilike =>
        rw [test_outcome (by rw [test?])]
        simp only [bind_assoc, pure_bind]
        exact outcome_ask (.chain sumLevel) rfl fun pattern c₁ _ => rfl
      | _ =>
        simp only [Rule.outcome, test?]
        rfl
    | _ =>
      simp only [Rule.outcome, test?]
      rfl

theorem nullTests_planned (subject : Expr) (c : Cursor) :
    (nullTests subject c).outcome = (Plan.nullTests subject c).run Rule.outcome := by
  unfold nullTests Plan.nullTests
  cases c.accept? (.keyword .is) with
  | none => rfl
  | some step =>
    obtain ⟨t, c₁, _⟩ := step
    dsimp only
    cases c₁.accept? (.keyword .not) with
    | none =>
      refine outcome_bind rfl fun _ c₂ _ => ?_
      exact outcome_relay (.nullTests (.isNull t.pos subject)) rfl fun _ _ _ => rfl
    | some step =>
      obtain ⟨n, c₂, _⟩ := step
      refine outcome_bind rfl fun _ c₃ _ => ?_
      exact outcome_relay (.nullTests (.not n.pos (.isNull t.pos subject))) rfl fun _ _ _ => rfl

theorem members_planned (c : Cursor) :
    (members c).outcome = (Plan.members c).run Rule.outcome := by
  unfold members Plan.members
  refine outcome_bind rfl fun _ c₁ _ => ?_
  dsimp only
  split
  · refine outcome_ask .select rfl fun query c₂ _ => ?_
    exact outcome_bind rfl fun _ c₃ _ => rfl
  · split
    · rfl
    · refine outcome_ask .expressions rfl fun items c₂ _ => ?_
      exact outcome_bind rfl fun _ c₃ _ => rfl

theorem called_planned (c : Cursor) : (called c).outcome = (Plan.called c).run Rule.outcome := by
  unfold called Plan.called
  refine outcome_ask .primary rfl fun callee c₁ _ => ?_
  exact outcome_relay (.callRest callee) rfl fun _ _ _ => rfl

theorem callRest_planned (callee : Expr) (c : Cursor) :
    (callRest callee c).outcome = (Plan.callRest callee c).run Rule.outcome := by
  unfold callRest Plan.callRest
  cases c.accept? .leftParen with
  | none => rfl
  | some step =>
    obtain ⟨t, c₁, _⟩ := step
    refine outcome_ask .arguments rfl fun args c₂ _ => ?_
    refine outcome_bind rfl fun _ c₃ _ => ?_
    exact outcome_relay (.callRest (.call t.pos callee args.1 args.2)) rfl fun _ _ _ => rfl

theorem arguments_planned (c : Cursor) :
    (arguments c).outcome = (Plan.arguments c).run Rule.outcome := by
  unfold arguments Plan.arguments
  cases c.accept? .star with
  | some step => rfl
  | none =>
    dsimp only
    split
    · rfl
    · exact outcome_ask .expressions rfl fun args c₁ _ => rfl

theorem primary_planned (c : Cursor) :
    (primary c).outcome = (Plan.primary c).run Rule.outcome := by
  unfold primary Plan.primary
  cases c with
  | nil => rfl
  | cons t rest =>
    obtain ⟨kind, lexeme, literal, pos⟩ := t
    cases kind with
    | leftParen =>
      dsimp only
      split
      · refine outcome_ask .select rfl fun query c₁ _ => ?_
        exact outcome_bind rfl fun _ c₂ _ => rfl
      · refine outcome_ask (.chain 0) rfl fun e c₁ _ => ?_
        exact outcome_bind rfl fun _ c₂ _ => rfl
    | identifier => exact outcome_bind rfl fun ref c₁ _ => rfl
    | keyword word =>
      cases word with
      | «select» => exact outcome_ask .select rfl fun query c₁ _ => rfl
      | «exists» =>
        refine outcome_bind rfl fun _ c₁ _ => ?_
        refine outcome_ask .select rfl fun query c₂ _ => ?_
        exact outcome_bind rfl fun _ c₃ _ => rfl
      | case =>
        refine outcome_ask .branches rfl fun cases c₁ _ => ?_
        dsimp only
        split
        · rfl
        · refine outcome_ask (.clause .else) rfl fun otherwise c₂ _ => ?_
          exact outcome_bind rfl fun _ c₃ _ => rfl
      | _ => rfl
    | _ => rfl

theorem branches_planned (c : Cursor) :
    (branches c).outcome = (Plan.branches c).run Rule.outcome := by
  unfold branches Plan.branches
  cases c.accept? (.keyword .when) with
  | none => rfl
  | some step =>
    refine outcome_ask (.chain 0) rfl fun condition c₂ _ => ?_
    refine outcome_bind rfl fun _ c₃ _ => ?_
    refine outcome_ask (.chain 0) rfl fun result c₄ _ => ?_
    exact outcome_ask .branches rfl fun others c₅ _ => rfl

theorem expressions_planned (c : Cursor) :
    (expressions c).outcome = (Plan.expressions c).run Rule.outcome := by
  unfold expressions Plan.expressions
  refine outcome_ask (.chain 0) rfl fun e c₁ _ => ?_
  dsimp only
  cases c₁.accept? .comma with
  | none => rfl
  | some step => exact outcome_ask .expressions rfl fun es c₃ _ => rfl

theorem clause_planned (word : Keyword) (c : Cursor) :
    (clause word c).outcome = (Plan.clause word c).run Rule.outcome := by
  unfold clause Plan.clause
  cases c.accept? (.keyword word) with
  | none => rfl
  | some step => exact outcome_ask (.chain 0) rfl fun e c₂ _ => rfl

theorem select_planned (c : Cursor) : (select c).outcome = (Plan.select c).run Rule.outcome := by
  unfold select Plan.select
  refine outcome_bind rfl fun start c₁ _ => ?_
  dsimp only
  split
  · rfl
  · refine outcome_ask .selectList rfl fun columns c₂ _ => ?_
    dsimp only
    cases c₂.accept? (.keyword .from) with
    | none =>
      dsimp only
      split
      · rfl
      · exact outcome_refuse (by rfl)
    | some step =>
      refine outcome_ask .tableRef rfl fun source c₄ _ => ?_
      refine outcome_ask .joinList rfl fun joins c₅ _ => ?_
      refine outcome_ask (.clause .where) rfl fun filter c₆ _ => ?_
      refine outcome_ask .groupClause rfl fun groupBy c₇ _ => ?_
      refine outcome_ask (.clause .having) rfl fun having c₈ _ => ?_
      refine outcome_ask .orderClause rfl fun orderBy c₉ _ => ?_
      refine outcome_ask (.clause .limit) rfl fun limit c₁₀ _ => ?_
      refine outcome_ask (.clause .offset) rfl fun offset c₁₁ _ => ?_
      exact outcome_refuse (by rfl)

theorem selectList_planned (c : Cursor) :
    (selectList c).outcome = (Plan.selectList c).run Rule.outcome := by
  unfold selectList Plan.selectList
  cases c.accept? .star with
  | some step => rfl
  | none => exact outcome_last .selectColumns rfl

theorem selectColumns_planned (c : Cursor) :
    (selectColumns c).outcome = (Plan.selectColumns c).run Rule.outcome := by
  unfold selectColumns Plan.selectColumns
  refine outcome_ask (.chain 0) rfl fun e c₁ _ => ?_
  refine outcome_bind rfl fun name c₂ _ => ?_
  dsimp only
  cases c₂.accept? .comma with
  | none => rfl
  | some step => exact outcome_ask .selectColumns rfl fun columns c₄ _ => rfl

theorem groupClause_planned (c : Cursor) :
    (groupClause c).outcome = (Plan.groupClause c).run Rule.outcome := by
  unfold groupClause Plan.groupClause
  cases c.accept? (.keyword .group) with
  | none => rfl
  | some step =>
    refine outcome_bind rfl fun _ c₂ _ => ?_
    exact outcome_relay .expressions rfl fun _ _ _ => rfl

theorem tableRef_planned (c : Cursor) :
    (tableRef c).outcome = (Plan.tableRef c).run Rule.outcome := by
  unfold tableRef Plan.tableRef
  cases c with
  | nil => rfl
  | cons t rest =>
    dsimp only
    split
    · exact outcome_bind rfl fun name c₁ _ => rfl
    · split
      · refine outcome_ask .select rfl fun query c₁ _ => ?_
        refine outcome_bind rfl fun _ c₂ _ => ?_
        exact outcome_bind rfl fun name c₃ _ => rfl
      · rfl

/-- Joins are read one by one for as long as one begins. -/
theorem joinList_eq (c : Cursor) : joinList c =
    if startsJoin c then do
      let ⟨first, c₁, h₁⟩ ← join c
      let ⟨others, c₂, h₂⟩ ← joinList c₁
      return ⟨first :: others, c₂, Cursor.length_lt_succ_trans h₂ h₁⟩
    else return ⟨[], c, Cursor.length_lt_succ c⟩ := by
  rw [joinList.eq_def]
  unfold join startsJoin
  cases c with
  | nil => rfl
  | cons t rest =>
    simp only [Cursor.current?, List.head?_cons, Option.any_some]
    rcases Option.eq_none_or_eq_some (joinStart? t.kind) with h | ⟨start, h⟩
    · simp only [h, Option.isSome_none]
      rfl
    · simp only [h, Option.isSome_some, if_true, bind_assoc, pure_bind]

theorem joinList_planned (c : Cursor) :
    (joinList c).outcome = (Plan.joinList c).run Rule.outcome := by
  rw [joinList_eq]
  unfold Plan.joinList
  split
  · refine outcome_ask .join rfl fun first c₁ _ => ?_
    exact outcome_ask .joinList rfl fun others c₂ _ => rfl
  · rfl

theorem join_planned (c : Cursor) : (join c).outcome = (Plan.join c).run Rule.outcome := by
  unfold join Plan.join
  cases c with
  | nil => rfl
  | cons t rest =>
    dsimp only
    cases joinStart? t.kind with
    | none => rfl
    | some start =>
      refine outcome_bind rfl fun _ c₁ _ => ?_
      refine outcome_ask .tableRef rfl fun table c₂ _ => ?_
      exact outcome_ask (.onClause start.1) rfl fun condition c₃ _ => rfl

theorem onClause_planned (kind : JoinKind) (c : Cursor) :
    (onClause kind c).outcome = (Plan.onClause kind c).run Rule.outcome := by
  unfold onClause Plan.onClause
  split
  · rfl
  · exact outcome_last (.clause .on) rfl

theorem orderClause_planned (c : Cursor) :
    (orderClause c).outcome = (Plan.orderClause c).run Rule.outcome := by
  unfold orderClause Plan.orderClause
  cases c.accept? (.keyword .order) with
  | none => rfl
  | some step =>
    refine outcome_bind rfl fun _ c₂ _ => ?_
    exact outcome_relay .orderKeys rfl fun _ _ _ => rfl

theorem orderKeys_planned (c : Cursor) :
    (orderKeys c).outcome = (Plan.orderKeys c).run Rule.outcome := by
  unfold orderKeys Plan.orderKeys
  refine outcome_bind rfl fun column c₁ _ => ?_
  dsimp only
  cases (direction c₁).rest.accept? .comma with
  | none => rfl
  | some step => exact outcome_ask .orderKeys rfl fun keys c₄ _ => rfl

/-- Every rule gives what its plan gives when the rules answer the calls. -/
theorem follows_plan (rule : Rule) (c : Cursor) :
    rule.outcome c = (rule.plan c).run Rule.outcome := by
  cases rule with
  | script => exact script_planned c
  | single => exact single_planned c
  | statement => exact statement_planned c
  | chain level => exact chain_planned level c
  | chainRest level left => exact chainRest_planned level left c
  | signed => exact signed_planned c
  | tested => exact tested_planned c
  | test subject => exact test_planned subject c
  | nullTests subject => exact nullTests_planned subject c
  | members => exact members_planned c
  | called => exact called_planned c
  | callRest callee => exact callRest_planned callee c
  | arguments => exact arguments_planned c
  | primary => exact primary_planned c
  | branches => exact branches_planned c
  | expressions => exact expressions_planned c
  | clause word => exact clause_planned word c
  | select => exact select_planned c
  | selectList => exact selectList_planned c
  | selectColumns => exact selectColumns_planned c
  | groupClause => exact groupClause_planned c
  | tableRef => exact tableRef_planned c
  | joinList => exact joinList_planned c
  | join => exact join_planned c
  | onClause kind => exact onClause_planned kind c
  | orderClause => exact orderClause_planned c
  | orderKeys => exact orderKeys_planned c

end TableQuery.Grammar
