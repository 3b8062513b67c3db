import TableQuery.Proofs.Query.Cursor

/-! # The calls a rule makes

What a rule does with the tokens it is entered with, as a plan: the calls of other rules are data,
and what comes behind a call depends on what the call has given. Carried out with the rules
themselves as the answers, the plan of a rule gives what the rule gives. So the calls in a plan are
the calls that the rule makes. -/

namespace TableQuery

/-- The outcome of a rule as a value and the tokens behind it. -/
def Parsed.outcome {α : Type} {n : Nat} (parsed : Parsed α n) :
    Except ParseFailure (α × Cursor) :=
  match parsed with
  | .ok step => .ok (step.value, step.rest)
  | .error failure => .error failure

/-- What follows a join is shorter than what it began with, since its table reads some token. -/
theorem Cursor.length_lt_join {t : Token} {rest c₁ c₂ c₃ : Cursor}
    (h₁ : c₁.length < rest.length + 1) (h₂ : c₂.length < c₁.length)
    (h₃ : c₃.length < c₂.length + 1) : c₃.length < List.length (t :: rest) := by
  simp only [List.length_cons]
  omega

namespace Grammar

/-! ## One join -/

/-- One join: how it begins, its table and its condition. -/
def join (c : Cursor) : Parsed Join c.length :=
  match c with
  | [] => .error ⟨.endOfInput, []⟩
  | t :: rest =>
    match joinStart? t.kind with
    | none =>
      .error (Cursor.invalid (Cursor.next (t :: rest))
        ("'" ++ t.lexeme ++ "' does not start a join"))
    | some (kind, needsJoin) => do
      let ⟨_, c₁, h₁⟩ ← joinWords t kind needsJoin rest
      let ⟨table, c₂, h₂⟩ ← tableRef c₁
      let ⟨condition, c₃, h₃⟩ ← onClause kind c₂
      return ⟨⟨t.pos, kind, table, condition⟩, c₃, Cursor.length_lt_join h₁ h₂ h₃⟩

/-- A token begins a join. -/
def startsJoin (c : Cursor) : Bool := c.current?.any (joinStart? ·.kind |>.isSome)

/-! ## Rules -/

/-- The rules that call rules, with what they are given beside the tokens. -/
inductive Rule where
  | script
  | single
  | statement
  | chain (level : Nat)
  | chainRest (level : Nat) (left : Expr)
  | signed
  | tested
  | test (subject : Expr)
  | nullTests (subject : Expr)
  | members
  | called
  | callRest (callee : Expr)
  | arguments
  | primary
  | branches
  | expressions
  | clause (word : Keyword)
  | select
  | selectList
  | selectColumns
  | groupClause
  | tableRef
  | joinList
  | join
  | onClause (kind : JoinKind)
  | orderClause
  | orderKeys

/-- What a rule builds. -/
abbrev Rule.Value : Rule → Type
  | script => List Select
  | single | statement | select => Select
  | chain _ | chainRest _ _ | signed | tested | nullTests _ | called | callRest _ | primary => Expr
  | test _ | clause _ | onClause _ => Option Expr
  | members | expressions | groupClause => List Expr
  | arguments => List Expr × Bool
  | branches => List Expr × List Expr
  | selectList | selectColumns => List SelectColumn
  | tableRef => TableRef
  | joinList => List Join
  | join => Join
  | orderClause | orderKeys => List OrderKey

/-- A rule and the tokens it is entered with. -/
structure Call where
  rule : Rule
  tokens : Cursor

/-- What becomes of calls. -/
abbrev Answers := (rule : Rule) → Cursor → Except ParseFailure (rule.Value × Cursor)

/-- What the rules give. Where no test begins, none is read. -/
def Rule.outcome : Answers
  | script, c => (Grammar.script c).outcome
  | single, c => (Grammar.single c).outcome
  | statement, c => (Grammar.statement c).outcome
  | chain level, c => (Grammar.chain level c).outcome
  | chainRest level left, c => (Grammar.chainRest level left c).outcome
  | signed, c => (Grammar.signed c).outcome
  | tested, c => (Grammar.tested c).outcome
  | test subject, c =>
    match Grammar.test? subject c with
    | none => .ok (none, c)
    | some found => do
      let (e, rest) ← found.outcome
      return (some e, rest)
  | nullTests subject, c => (Grammar.nullTests subject c).outcome
  | members, c => (Grammar.members c).outcome
  | called, c => (Grammar.called c).outcome
  | callRest callee, c => (Grammar.callRest callee c).outcome
  | arguments, c => (Grammar.arguments c).outcome
  | primary, c => (Grammar.primary c).outcome
  | branches, c => (Grammar.branches c).outcome
  | expressions, c => (Grammar.expressions c).outcome
  | clause word, c => (Grammar.clause word c).outcome
  | select, c => (Grammar.select c).outcome
  | selectList, c => (Grammar.selectList c).outcome
  | selectColumns, c => (Grammar.selectColumns c).outcome
  | groupClause, c => (Grammar.groupClause c).outcome
  | tableRef, c => (Grammar.tableRef c).outcome
  | joinList, c => (Grammar.joinList c).outcome
  | join, c => (Grammar.join c).outcome
  | onClause kind, c => (Grammar.onClause kind c).outcome
  | orderClause, c => (Grammar.orderClause c).outcome
  | orderKeys, c => (Grammar.orderKeys c).outcome

/-! ## Plans -/

/-- A course of calls. A failed call ends it. -/
inductive Plan (α : Type) where
  | done (outcome : Except ParseFailure α)
  | call (rule : Rule) (c : Cursor) (next : rule.Value → Cursor → Plan α)

namespace Plan

variable {α β : Type}

def bind : Plan α → (α → Plan β) → Plan β
  | done (.ok a), next => next a
  | done (.error failure), _ => done (.error failure)
  | call rule c following, next => call rule c fun v rest => (following v rest).bind next

instance : Monad Plan where
  pure a := done (.ok a)
  bind := bind

/-- Calls a rule. -/
def ask (rule : Rule) (c : Cursor) : Plan (rule.Value × Cursor) :=
  call rule c fun v rest => done (.ok (v, rest))

/-- Does what calls no rule. -/
def direct {n : Nat} (parsed : Parsed α n) : Plan (α × Cursor) := done parsed.outcome

def fail (failure : ParseFailure) : Plan α := done (.error failure)

/-- What the plan gives when its calls are answered. -/
def run (answers : Answers) : Plan α → Except ParseFailure α
  | done outcome => outcome
  | call rule c next => do
    let (v, rest) ← answers rule c
    (next v rest).run answers

end Plan

/-! ## What each rule does -/

namespace Plan

def script (c : Cursor) : Plan (List Select × Cursor) :=
  if c.isAtEnd then return ([], c)
  else do
    let (query, c₁) ← ask .statement c
    let (queries, c₂) ← ask .script c₁
    return (query :: queries, c₂)

def single (c : Cursor) : Plan (Select × Cursor) := do
  let (query, c₁) ← ask .statement c
  if c₁.isAtEnd then return (query, c₁)
  else fail (c₁.unexpected "Expected end of input after statement")

def statement (c : Cursor) : Plan (Select × Cursor) := do
  let (query, c₁) ← ask .select c
  if c₁.isAtEnd then return (query, c₁)
  else
    let (_, c₂) ← direct (c₁.take .semicolon "Expected ';' at the end of a statement")
    return (query, c₂)

def chain (level : Nat) (c : Cursor) : Plan (Expr × Cursor) :=
  if level < levels then do
    let (left, c₁) ← ask (.chain (level + 1)) c
    ask (.chainRest level left) c₁
  else ask .signed c

def chainRest (level : Nat) (left : Expr) (c : Cursor) : Plan (Expr × Cursor) :=
  match c with
  | [] => return (left, [])
  | t :: rest =>
    match operatorNode? level t.kind with
    | none => return (left, t :: rest)
    | some node => do
      let (right, c₁) ← ask (.chain (level + 1)) rest
      ask (.chainRest level (node t.pos left right)) c₁

def signed (c : Cursor) : Plan (Expr × Cursor) :=
  match c.accept? (.keyword .not) with
  | some ⟨t, c₁, _⟩ => do
    let (e, c₂) ← ask .signed c₁
    return (.not t.pos e, c₂)
  | none =>
    match c.accept? .minus with
    | some ⟨t, c₁, _⟩ => do
      let (e, c₂) ← ask .signed c₁
      return (.negate t.pos e, c₂)
    | none => ask .tested c

def tested (c : Cursor) : Plan (Expr × Cursor) := do
  let (subject, c₁) ← ask .called c
  match c₁.accept? (.keyword .not) with
  | some ⟨n, c₂, _⟩ =>
    let (found, c₃) ← ask (.test subject) c₂
    match found with
    | none => fail (c₂.unexpected "Expected 'in', 'between' or 'like' after 'not'")
    | some e => ask (.nullTests (.not n.pos e)) c₃
  | none =>
    let (found, c₂) ← ask (.test subject) c₁
    ask (.nullTests (found.getD subject)) c₂

def test (subject : Expr) (c : Cursor) : Plan (Option Expr × Cursor) :=
  match c with
  | [] => return (none, [])
  | t :: rest =>
    match t.kind with
    | .keyword .in => do
      let (items, c₁) ← ask .members rest
      return (some (.member t.pos subject items), c₁)
    | .keyword .between => do
      let (low, c₁) ← ask (.chain sumLevel) rest
      let (_, c₂) ←
        direct (c₁.take (.keyword .and) "Expected 'and' after the lower 'between' bound")
      let (high, c₃) ← ask (.chain sumLevel) c₂
      return (some (.between t.pos subject low high), c₃)
    | .keyword .like => do
      let (pattern, c₁) ← ask (.chain sumLevel) rest
      return (some (.like t.pos subject pattern false), c₁)
    | .keyword .ilike => do
      let (pattern, c₁) ← ask (.chain sumLevel) rest
      return (some (.like t.pos subject pattern true), c₁)
    | _ => return (none, t :: rest)

def nullTests (subject : Expr) (c : Cursor) : Plan (Expr × Cursor) :=
  match c.accept? (.keyword .is) with
  | none => return (subject, c)
  | some ⟨t, c₁, _⟩ =>
    match c₁.accept? (.keyword .not) with
    | none => do
      let (_, c₂) ← direct (c₁.take (.keyword .null) "Expected 'null' after 'is'")
      ask (.nullTests (.isNull t.pos subject)) c₂
    | some ⟨n, c₂, _⟩ => do
      let (_, c₃) ← direct (c₂.take (.keyword .null) "Expected 'null' after 'is'")
      ask (.nullTests (.not n.pos (.isNull t.pos subject))) c₃

def members (c : Cursor) : Plan (List Expr × Cursor) := do
  let (_, c₁) ← direct (c.take .leftParen "Expected '(' at the start of 'in' list")
  let closing := "Expected ')' at the end of 'in' list"
  if c₁.at? (.keyword .select) then
    let (query, c₂) ← ask .select c₁
    let (_, c₃) ← direct (c₂.take .rightParen closing)
    return ([.subquery query], c₃)
  else if c₁.at? .rightParen then
    fail (c₁.invalid "'in' list can't be empty")
  else
    let (items, c₂) ← ask .expressions c₁
    let (_, c₃) ← direct (c₂.take .rightParen closing)
    return (items, c₃)

def called (c : Cursor) : Plan (Expr × Cursor) := do
  let (callee, c₁) ← ask .primary c
  ask (.callRest callee) c₁

def callRest (callee : Expr) (c : Cursor) : Plan (Expr × Cursor) :=
  match c.accept? .leftParen with
  | none => return (callee, c)
  | some ⟨t, c₁, _⟩ => do
    let ((args, star), c₂) ← ask .arguments c₁
    let (_, c₃) ← direct (c₂.take .rightParen "Expected ')' after call arguments")
    ask (.callRest (.call t.pos callee args star)) c₃

def arguments (c : Cursor) : Plan ((List Expr × Bool) × Cursor) :=
  match c.accept? .star with
  | some ⟨_, c₁, _⟩ => return (([], true), c₁)
  | none =>
    if c.at? .rightParen then return (([], false), c)
    else do
      let (args, c₁) ← ask .expressions c
      return ((args, false), c₁)

def primary (c : Cursor) : Plan (Expr × Cursor) :=
  match c with
  | [] => fail ⟨.endOfInput, []⟩
  | t :: rest =>
    match t.kind with
    | .leftParen =>
      if Cursor.at? rest (.keyword .select) then do
        let (query, c₁) ← ask .select rest
        let (_, c₂) ← direct (c₁.take .rightParen "Expected ')' after subquery")
        return (.subquery query, c₂)
      else do
        let (e, c₁) ← ask (.chain 0) rest
        let (_, c₂) ← direct (c₁.take .rightParen "Expected ')' at the end of the grouping")
        return (.group t.pos e, c₂)
    | .keyword .select => do
      let (query, c₁) ← ask .select (t :: rest)
      return (.subquery query, c₁)
    | .keyword .exists => do
      let (_, c₁) ← direct (Cursor.take rest .leftParen "Expected '(' after 'exists'")
      let (query, c₂) ← ask .select c₁
      let (_, c₃) ← direct (c₂.take .rightParen "Expected ')' after 'exists' subquery")
      return (.existence t.pos query, c₃)
    | .keyword .case => do
      let ((whens, thens), c₁) ← ask .branches rest
      if whens.isEmpty then
        fail (c₁.unexpected "Expected 'when' branch in 'case' expression")
      else
        let (otherwise, c₂) ← ask (.clause .else) c₁
        let (_, c₃) ←
          direct (c₂.take (.keyword .end) "Expected 'end' at the end of 'case' expression")
        return (.case t.pos whens thens otherwise, c₃)
    | .identifier => do
      let (ref, c₁) ← direct (columnRef (t :: rest))
      return (.column ref, c₁)
    | .keyword .all => fail (Cursor.unsupported (t :: rest) "all")
    | .keyword .any => fail (Cursor.unsupported (t :: rest) "any")
    | .number | .string | .keyword .true | .keyword .false | .keyword .null =>
      return (.literal t.pos (t.literal.getD .null), rest)
    | _ => fail (Cursor.unexpected (t :: rest) "Expected expression")

def branches (c : Cursor) : Plan ((List Expr × List Expr) × Cursor) :=
  match c.accept? (.keyword .when) with
  | none => return (([], []), c)
  | some ⟨_, c₁, _⟩ => do
    let (condition, c₂) ← ask (.chain 0) c₁
    let (_, c₃) ← direct (c₂.take (.keyword .then) "Expected 'then' after 'when' condition")
    let (result, c₄) ← ask (.chain 0) c₃
    let ((whens, thens), c₅) ← ask .branches c₄
    return ((condition :: whens, result :: thens), c₅)

def expressions (c : Cursor) : Plan (List Expr × Cursor) := do
  let (e, c₁) ← ask (.chain 0) c
  match c₁.accept? .comma with
  | none => return ([e], c₁)
  | some ⟨_, c₂, _⟩ =>
    let (es, c₃) ← ask .expressions c₂
    return (e :: es, c₃)

def clause (word : Keyword) (c : Cursor) : Plan (Option Expr × Cursor) :=
  match c.accept? (.keyword word) with
  | none => return (none, c)
  | some ⟨_, c₁, _⟩ => do
    let (e, c₂) ← ask (.chain 0) c₁
    return (some e, c₂)

def select (c : Cursor) : Plan (Select × Cursor) := do
  let (start, c₁) ← direct (c.take (.keyword .select) "Expected 'select' at the start of a query")
  if c₁.at? (.keyword .distinct) then fail (c₁.unsupported "select distinct")
  else
    let (columns, c₂) ← ask .selectList c₁
    let star := columns.isEmpty
    match c₂.accept? (.keyword .from) with
    | none =>
      if star then fail (c₂.invalid "Can't select '*' without a 'from' clause")
      else
        done (refuseSetOperation c₂)
        return (⟨start.pos, false, columns, none, [], none, [], none, [], none, none⟩, c₂)
    | some ⟨_, c₃, _⟩ =>
      let (source, c₄) ← ask .tableRef c₃
      let (joins, c₅) ← ask .joinList c₄
      let (filter, c₆) ← ask (.clause .where) c₅
      let (groupBy, c₇) ← ask .groupClause c₆
      let (having, c₈) ← ask (.clause .having) c₇
      let (orderBy, c₉) ← ask .orderClause c₈
      let (limit, c₁₀) ← ask (.clause .limit) c₉
      let (offset, c₁₁) ← ask (.clause .offset) c₁₀
      done (refuseSetOperation c₁₁)
      return (⟨start.pos, star, columns, some source, joins, filter, groupBy, having, orderBy,
        limit, offset⟩, c₁₁)

def selectList (c : Cursor) : Plan (List SelectColumn × Cursor) :=
  match c.accept? .star with
  | some ⟨_, c₁, _⟩ => return ([], c₁)
  | none => ask .selectColumns c

def selectColumns (c : Cursor) : Plan (List SelectColumn × Cursor) := do
  let (e, c₁) ← ask (.chain 0) c
  let (name, c₂) ← direct (label c₁)
  match c₂.accept? .comma with
  | none => return ([⟨e, name⟩], c₂)
  | some ⟨_, c₃, _⟩ =>
    let (columns, c₄) ← ask .selectColumns c₃
    return (⟨e, name⟩ :: columns, c₄)

def groupClause (c : Cursor) : Plan (List Expr × Cursor) :=
  match c.accept? (.keyword .group) with
  | none => return ([], c)
  | some ⟨_, c₁, _⟩ => do
    let (_, c₂) ← direct (c₁.take (.keyword .by) "Expected 'by' after 'group'")
    ask .expressions c₂

def tableRef (c : Cursor) : Plan (TableRef × Cursor) :=
  match c with
  | [] => fail ⟨.endOfInput, []⟩
  | t :: rest =>
    if t.kind = .identifier then do
      let (name, c₁) ← direct (label rest)
      return (⟨t.pos, .table t.lexeme, name⟩, c₁)
    else if t.kind = .leftParen ∧ Cursor.at? rest (.keyword .select) then do
      let (query, c₁) ← ask .select rest
      let (_, c₂) ← direct (c₁.take .rightParen "Expected ')' after subquery")
      let (name, c₃) ← direct (label c₂)
      return (⟨t.pos, .subquery query, name⟩, c₃)
    else
      fail (Cursor.unexpected (t :: rest)
        "Expected table name or subquery as table reference")

def joinList (c : Cursor) : Plan (List Join × Cursor) :=
  if startsJoin c then do
    let (first, c₁) ← ask .join c
    let (others, c₂) ← ask .joinList c₁
    return (first :: others, c₂)
  else return ([], c)

def join (c : Cursor) : Plan (Join × Cursor) :=
  match c with
  | [] => fail ⟨.endOfInput, []⟩
  | t :: rest =>
    match joinStart? t.kind with
    | none =>
      fail (Cursor.invalid (Cursor.next (t :: rest))
        ("'" ++ t.lexeme ++ "' does not start a join"))
    | some (kind, needsJoin) => do
      let (_, c₁) ← direct (joinWords t kind needsJoin rest)
      let (table, c₂) ← ask .tableRef c₁
      let (condition, c₃) ← ask (.onClause kind) c₂
      return (⟨t.pos, kind, table, condition⟩, c₃)

def onClause (kind : JoinKind) (c : Cursor) : Plan (Option Expr × Cursor) :=
  if kind = .cross then return (none, c) else ask (.clause .on) c

def orderClause (c : Cursor) : Plan (List OrderKey × Cursor) :=
  match c.accept? (.keyword .order) with
  | none => return ([], c)
  | some ⟨_, c₁, _⟩ => do
    let (_, c₂) ← direct (c₁.take (.keyword .by) "Expected 'by' after 'order'")
    ask .orderKeys c₂

def orderKeys (c : Cursor) : Plan (List OrderKey × Cursor) := do
  let (column, c₁) ← direct (columnRef c)
  let ⟨way, c₂, _⟩ := direction c₁
  match c₂.accept? .comma with
  | none => return ([⟨column, way⟩], c₂)
  | some ⟨_, c₃, _⟩ =>
    let (keys, c₄) ← ask .orderKeys c₃
    return (⟨column, way⟩ :: keys, c₄)

end Plan

/-- What a rule does with the tokens it is entered with. -/
def Rule.plan : (rule : Rule) → Cursor → Plan (rule.Value × Cursor)
  | script => Plan.script
  | single => Plan.single
  | statement => Plan.statement
  | chain level => Plan.chain level
  | chainRest level left => Plan.chainRest level left
  | signed => Plan.signed
  | tested => Plan.tested
  | test subject => Plan.test subject
  | nullTests subject => Plan.nullTests subject
  | members => Plan.members
  | called => Plan.called
  | callRest callee => Plan.callRest callee
  | arguments => Plan.arguments
  | primary => Plan.primary
  | branches => Plan.branches
  | expressions => Plan.expressions
  | clause word => Plan.clause word
  | select => Plan.select
  | selectList => Plan.selectList
  | selectColumns => Plan.selectColumns
  | groupClause => Plan.groupClause
  | tableRef => Plan.tableRef
  | joinList => Plan.joinList
  | join => Plan.join
  | onClause kind => Plan.onClause kind
  | orderClause => Plan.orderClause
  | orderKeys => Plan.orderKeys

/-! ## Running plans -/

namespace Plan

variable {α β : Type} {answers : Answers}

theorem run_bind (plan : Plan α) (next : α → Plan β) :
    (plan >>= next).run answers = plan.run answers >>= fun a => (next a).run answers := by
  induction plan with
  | done outcome =>
    cases outcome with
    | error failure => rfl
    | ok a => rfl
  | call rule c following ih =>
    change (answers rule c >>= fun a => ((following a.1 a.2) >>= next).run answers) = _
    simp only [ih, run, bind_assoc]

theorem run_ask (rule : Rule) (c : Cursor) : (ask rule c).run answers = answers rule c := by
  simp only [ask, run]
  cases answers rule c <;> rfl

/-- The plan makes the call when its calls are answered: the call is its first one, or it comes
behind a call that has been answered by a value. -/
inductive Makes (answers : Answers) : Plan α → Call → Prop where
  | first {rule : Rule} {c : Cursor} {next : rule.Value → Cursor → Plan α} :
    Makes answers (call rule c next) ⟨rule, c⟩
  | behind {rule : Rule} {c : Cursor} {next : rule.Value → Cursor → Plan α} {v : rule.Value}
    {rest : Cursor} {inner : Call} (answered : answers rule c = .ok (v, rest))
    (made : Makes answers (next v rest) inner) : Makes answers (call rule c next) inner

end Plan

/-- The one call is made by the rule of the other one, entered with its tokens. -/
def Call.Makes (outer inner : Call) : Prop :=
  (outer.rule.plan outer.tokens).Makes Rule.outcome inner

end Grammar

end TableQuery
