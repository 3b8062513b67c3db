import TableQuery.Query.Cursor
import TableQuery.Query.Tree

/-!
The grammar of queries, by recursive descent. From the loosest to the tightest, expressions are made
of `or`; `and`; `=` and `<>`; `<`, `<=`, `>` and `>=`; `+` and `-`; `*`, `/` and `%`; `not` and `-`
in front; the tests `in`, `between`, `like` and `is null`; calls; and the primary forms. The binary
operators group to the left.

Every rule ends because it has fewer unread tokens than its caller, or as many and a lower rank; the
measure of a rule is sixteen times the number of its tokens plus its rank.
-/

namespace TableQuery.Grammar

/-! ## Rules without expressions in them -/

/-- A column name, or a table name and a column name with a point between them. -/
def columnRef (c : Cursor) : Parsed ColumnRef c.length := do
  let ⟨first, c₁, _⟩ ← c.identifier
  match c₁.accept? .dot with
  | none => return ⟨⟨first.pos, none, first.lexeme⟩, c₁, by omega⟩
  | some ⟨_, c₂, _⟩ =>
    let ⟨name, c₃, _⟩ ← c₂.take .identifier "Expected column name after '.'"
    return ⟨⟨name.pos, some first.lexeme, name.lexeme⟩, c₃, by omega⟩

/-- An optional name, with or without `as`. -/
def label (c : Cursor) : Parsed (Option String) (c.length + 1) :=
  match c.accept? (.keyword .as) with
  | some ⟨_, c₁, _⟩ => do
    let ⟨name, c₂, _⟩ ← c₁.take .identifier "Expected alias after 'as'"
    return ⟨some name.lexeme, c₂, by omega⟩
  | none =>
    match c.accept? .identifier with
    | some ⟨name, c₁, _⟩ => return ⟨some name.lexeme, c₁, by omega⟩
    | none => return ⟨none, c, by omega⟩

/-- An optional direction; ascending where none is given. -/
def direction (c : Cursor) : Step Direction (c.length + 1) :=
  match c.accept? (.keyword .desc) with
  | some ⟨_, c₁, _⟩ => ⟨.descending, c₁, by omega⟩
  | none =>
    match c.accept? (.keyword .asc) with
    | some ⟨_, c₁, _⟩ => ⟨.ascending, c₁, by omega⟩
    | none => ⟨.ascending, c, by omega⟩

/-- Sort keys with commas between them, at least one. -/
def orderKeys (c : Cursor) : Parsed (List OrderKey) c.length := do
  let ⟨column, c₁, _⟩ ← columnRef c
  let ⟨way, c₂, _⟩ := direction c₁
  match c₂.accept? .comma with
  | none => return ⟨[⟨column, way⟩], c₂, by omega⟩
  | some ⟨_, c₃, _⟩ =>
    let ⟨keys, c₄, _⟩ ← orderKeys c₃
    return ⟨⟨column, way⟩ :: keys, c₄, by omega⟩
termination_by c.length

/-- The optional `order by` clause. -/
def orderClause (c : Cursor) : Parsed (List OrderKey) (c.length + 1) :=
  match c.accept? (.keyword .order) with
  | none => return ⟨[], c, by omega⟩
  | some ⟨_, c₁, _⟩ => do
    let ⟨_, c₂, _⟩ ← c₁.take (.keyword .by) "Expected 'by' after 'order'"
    let ⟨keys, c₃, _⟩ ← orderKeys c₂
    return ⟨keys, c₃, by omega⟩

/-- Any number of `is null` and `is not null` behind an expression. -/
def nullTests (subject : Expr) (c : Cursor) : Parsed Expr (c.length + 1) :=
  match c.accept? (.keyword .is) with
  | none => return ⟨subject, c, by omega⟩
  | some ⟨t, c₁, _⟩ =>
    match c₁.accept? (.keyword .not) with
    | none => do
      let ⟨_, c₂, _⟩ ← c₁.take (.keyword .null) "Expected 'null' after 'is'"
      let ⟨e, c₃, _⟩ ← nullTests (.isNull t.pos subject) c₂
      return ⟨e, c₃, by omega⟩
    | some ⟨n, c₂, _⟩ => do
      let ⟨_, c₃, _⟩ ← c₂.take (.keyword .null) "Expected 'null' after 'is'"
      let ⟨e, c₄, _⟩ ← nullTests (.not n.pos (.isNull t.pos subject)) c₃
      return ⟨e, c₄, by omega⟩
termination_by c.length

/-- The features that the words of set operations ask for. -/
def setOperation? : TokenKind → Option String
  | .keyword .union => some "union"
  | .keyword .intersect => some "intersect"
  | .keyword .except => some "except"
  | _ => none

/-- Refuses a set operation behind a query. -/
def refuseSetOperation (c : Cursor) : Except ParseFailure Unit :=
  match c.current? with
  | none => .error ⟨.endOfInput, c⟩
  | some t =>
    match setOperation? t.kind with
    | some feature => .error (c.unsupported feature)
    | none => .ok ()

/-- The kind of join a token begins, and whether `join` has to follow. -/
def joinStart? : TokenKind → Option (JoinKind × Bool)
  | .comma => some (.cross, false)
  | .keyword .join => some (.inner, false)
  | .keyword .inner => some (.inner, true)
  | .keyword .cross => some (.cross, true)
  | .keyword .left => some (.left, true)
  | .keyword .right => some (.right, true)
  | .keyword .full => some (.full, true)
  | _ => none

/-- The joins that keep unmatched rows may say so. -/
def allowsOuter : JoinKind → Bool
  | .left | .right | .full => true
  | .inner | .cross => false

/-- The words between the first word of a join and its table. -/
def joinWords (start : Token) (kind : JoinKind) (needsJoin : Bool) (c : Cursor) :
    Parsed Unit (c.length + 1) :=
  if needsJoin then
    let expectation := "Expected 'join' after '" ++ start.lexeme ++ "'"
    match if allowsOuter kind then c.accept? (.keyword .outer) else none with
    | some ⟨_, c₁, _⟩ => do
      let ⟨_, c₂, _⟩ ← c₁.take (.keyword .join) expectation
      return ⟨(), c₂, by omega⟩
    | none => do
      let ⟨_, c₁, _⟩ ← c.take (.keyword .join) expectation
      return ⟨(), c₁, by omega⟩
  else return ⟨(), c, by omega⟩

/-! ## Binary operators -/

/-- The number of levels of binary operators. -/
def levels : Nat := 6

/-- The level of the tightest operators among which the bounds of `between` and the patterns of
`like` are read: sums. -/
def sumLevel : Nat := 4

/-- The node that an operator of this level builds. -/
def operatorNode? (level : Nat) (kind : TokenKind) : Option (Position → Expr → Expr → Expr) :=
  match level, kind with
  | 0, .keyword .or => some (.logical · .or)
  | 1, .keyword .and => some (.logical · .and)
  | 2, .equal => some (.binary · .equal)
  | 2, .notEqual => some (.binary · .notEqual)
  | 3, .less => some (.binary · .less)
  | 3, .lessEqual => some (.binary · .lessOrEqual)
  | 3, .greater => some (.binary · .greater)
  | 3, .greaterEqual => some (.binary · .greaterOrEqual)
  | 4, .plus => some (.binary · .plus)
  | 4, .minus => some (.binary · .minus)
  | 5, .star => some (.binary · .times)
  | 5, .slash => some (.binary · .divide)
  | 5, .percent => some (.binary · .modulo)
  | _, _ => none

/-! ## Expressions and queries -/

mutual

/-- Operators of this level and the tighter ones. -/
def chain (level : Nat) (c : Cursor) : Parsed Expr c.length :=
  if level < levels then do
    let ⟨left, c₁, _⟩ ← chain (level + 1) c
    let ⟨e, c₂, _⟩ ← chainRest level left c₁
    return ⟨e, c₂, by omega⟩
  else signed c
termination_by 16 * c.length + (5 + (levels - level))
decreasing_by all_goals (simp only [levels] at *; omega)

/-- Any number of operators of one level behind their left operand. -/
def chainRest (level : Nat) (left : Expr) (c : Cursor) : Parsed Expr (c.length + 1) :=
  match c with
  | [] => return ⟨left, [], Cursor.length_lt_succ []⟩
  | t :: rest =>
    match operatorNode? level t.kind with
    | none => return ⟨left, t :: rest, Cursor.length_lt_succ (t :: rest)⟩
    | some node => do
      let ⟨right, c₁, _⟩ ← chain (level + 1) rest
      let ⟨e, c₂, _⟩ ← chainRest level (node t.pos left right) c₁
      return ⟨e, c₂, by simp only [List.length_cons]; omega⟩
termination_by 16 * c.length
decreasing_by all_goals (simp only [levels, List.length_cons] at *; omega)

/-- Any number of `not` and `-` in front. -/
def signed (c : Cursor) : Parsed Expr c.length :=
  match c.accept? (.keyword .not) with
  | some ⟨t, c₁, _⟩ => do
    let ⟨e, c₂, _⟩ ← signed c₁
    return ⟨.not t.pos e, c₂, by omega⟩
  | none =>
    match c.accept? .minus with
    | some ⟨t, c₁, _⟩ => do
      let ⟨e, c₂, _⟩ ← signed c₁
      return ⟨.negate t.pos e, c₂, by omega⟩
    | none => tested c
termination_by 16 * c.length + 4

/-- A call with at most one of the tests `in`, `between` and `like`, or the opposite of one, and
then any number of null tests. -/
def tested (c : Cursor) : Parsed Expr c.length := do
  let ⟨subject, c₁, _⟩ ← called c
  match c₁.accept? (.keyword .not) with
  | some ⟨n, c₂, _⟩ =>
    match test? subject c₂ with
    | none => .error (c₂.unexpected "Expected 'in', 'between' or 'like' after 'not'")
    | some outcome =>
      let ⟨e, c₃, _⟩ ← outcome
      let ⟨e, c₄, _⟩ ← nullTests (.not n.pos e) c₃
      return ⟨e, c₄, by omega⟩
  | none =>
    match test? subject c₁ with
    | none =>
      let ⟨e, c₂, _⟩ ← nullTests subject c₁
      return ⟨e, c₂, by omega⟩
    | some outcome =>
      let ⟨e, c₂, _⟩ ← outcome
      let ⟨e, c₃, _⟩ ← nullTests e c₂
      return ⟨e, c₃, by omega⟩
termination_by 16 * c.length + 3

/-- The test of a subject that begins here, if one does. -/
def test? (subject : Expr) (c : Cursor) : Option (Parsed Expr c.length) :=
  match c with
  | [] => none
  | t :: rest =>
    match t.kind with
    | .keyword .in => some do
      let ⟨items, c₁, _⟩ ← members rest
      return ⟨.member t.pos subject items, c₁, by simp only [List.length_cons]; omega⟩
    | .keyword .between => some do
      let ⟨low, c₁, _⟩ ← chain sumLevel rest
      let ⟨_, c₂, _⟩ ←
        c₁.take (.keyword .and) "Expected 'and' after the lower 'between' bound"
      let ⟨high, c₃, _⟩ ← chain sumLevel c₂
      return ⟨.between t.pos subject low high, c₃, by simp only [List.length_cons]; omega⟩
    | .keyword .like => some do
      let ⟨pattern, c₁, _⟩ ← chain sumLevel rest
      return ⟨.like t.pos subject pattern false, c₁, by simp only [List.length_cons]; omega⟩
    | .keyword .ilike => some do
      let ⟨pattern, c₁, _⟩ ← chain sumLevel rest
      return ⟨.like t.pos subject pattern true, c₁, by simp only [List.length_cons]; omega⟩
    | _ => none
termination_by 16 * c.length
decreasing_by all_goals (simp only [levels, sumLevel, List.length_cons] at *; omega)

/-- The list behind `in`: a query, or expressions. -/
def members (c : Cursor) : Parsed (List Expr) c.length := do
  let ⟨_, c₁, _⟩ ← c.take .leftParen "Expected '(' at the start of 'in' list"
  let closing := "Expected ')' at the end of 'in' list"
  if c₁.at? (.keyword .select) then
    let ⟨query, c₂, _⟩ ← select c₁
    let ⟨_, c₃, _⟩ ← c₂.take .rightParen closing
    return ⟨[.subquery query], c₃, by omega⟩
  else if c₁.at? .rightParen then
    .error (c₁.invalid "'in' list can't be empty")
  else
    let ⟨items, c₂, _⟩ ← expressions c₁
    let ⟨_, c₃, _⟩ ← c₂.take .rightParen closing
    return ⟨items, c₃, by omega⟩
termination_by 16 * c.length

/-- A primary form and any number of argument lists behind it. -/
def called (c : Cursor) : Parsed Expr c.length := do
  let ⟨callee, c₁, _⟩ ← primary c
  let ⟨e, c₂, _⟩ ← callRest callee c₁
  return ⟨e, c₂, by omega⟩
termination_by 16 * c.length + 2

/-- Any number of argument lists. -/
def callRest (callee : Expr) (c : Cursor) : Parsed Expr (c.length + 1) :=
  match c.accept? .leftParen with
  | none => return ⟨callee, c, by omega⟩
  | some ⟨t, c₁, _⟩ => do
    let ⟨(args, star), c₂, _⟩ ← arguments c₁
    let ⟨_, c₃, _⟩ ← c₂.take .rightParen "Expected ')' after call arguments"
    let ⟨e, c₄, _⟩ ← callRest (.call t.pos callee args star) c₃
    return ⟨e, c₄, by omega⟩
termination_by 16 * c.length

/-- What stands in an argument list: a star, nothing, or expressions. -/
def arguments (c : Cursor) : Parsed (List Expr × Bool) (c.length + 1) :=
  match c.accept? .star with
  | some ⟨_, c₁, _⟩ => return ⟨([], true), c₁, by omega⟩
  | none =>
    if c.at? .rightParen then return ⟨([], false), c, by omega⟩
    else do
      let ⟨args, c₁, _⟩ ← expressions c
      return ⟨(args, false), c₁, by omega⟩
termination_by 16 * c.length + 13

/-- A literal, a column, a query, or a form with its own brackets. -/
def primary (c : Cursor) : Parsed Expr c.length :=
  match c with
  | [] => .error ⟨.endOfInput, []⟩
  | t :: rest =>
    match t.kind with
    | .leftParen => do
      if Cursor.at? rest (.keyword .select) then
        let ⟨query, c₁, _⟩ ← select rest
        let ⟨_, c₂, _⟩ ← c₁.take .rightParen "Expected ')' after subquery"
        return ⟨.subquery query, c₂, by simp only [List.length_cons]; omega⟩
      else
        let ⟨e, c₁, _⟩ ← chain 0 rest
        let ⟨_, c₂, _⟩ ← c₁.take .rightParen "Expected ')' at the end of the grouping"
        return ⟨.group t.pos e, c₂, by simp only [List.length_cons]; omega⟩
    | .keyword .select => do
      let ⟨query, c₁, _⟩ ← select (t :: rest)
      return ⟨.subquery query, c₁, by omega⟩
    | .keyword .exists => do
      let ⟨_, c₁, _⟩ ← Cursor.take rest .leftParen "Expected '(' after 'exists'"
      let ⟨query, c₂, _⟩ ← select c₁
      let ⟨_, c₃, _⟩ ← c₂.take .rightParen "Expected ')' after 'exists' subquery"
      return ⟨.existence t.pos query, c₃, by simp only [List.length_cons]; omega⟩
    | .keyword .case => do
      let ⟨(whens, thens), c₁, _⟩ ← branches rest
      if whens.isEmpty then
        .error (c₁.unexpected "Expected 'when' branch in 'case' expression")
      else
        let ⟨otherwise, c₂, _⟩ ← clause .else c₁
        let ⟨_, c₃, _⟩ ← c₂.take (.keyword .end) "Expected 'end' at the end of 'case' expression"
        return ⟨.case t.pos whens thens otherwise, c₃, by simp only [List.length_cons]; omega⟩
    | .identifier => do
      let ⟨ref, c₁, _⟩ ← columnRef (t :: rest)
      return ⟨.column ref, c₁, by omega⟩
    | .keyword .all => .error (Cursor.unsupported (t :: rest) "all")
    | .keyword .any => .error (Cursor.unsupported (t :: rest) "any")
    | .number | .string | .keyword .true | .keyword .false | .keyword .null =>
      return ⟨.literal t.pos (t.literal.getD .null), rest, Cursor.length_tail_lt t rest⟩
    | _ => .error (Cursor.unexpected (t :: rest) "Expected expression")
termination_by 16 * c.length + 1
decreasing_by all_goals (simp only [levels, List.length_cons] at *; omega)

/-- Any number of `when` conditions with their `then` results. -/
def branches (c : Cursor) : Parsed (List Expr × List Expr) (c.length + 1) :=
  match c.accept? (.keyword .when) with
  | none => return ⟨([], []), c, by omega⟩
  | some ⟨_, c₁, _⟩ => do
    let ⟨condition, c₂, _⟩ ← chain 0 c₁
    let ⟨_, c₃, _⟩ ← c₂.take (.keyword .then) "Expected 'then' after 'when' condition"
    let ⟨result, c₄, _⟩ ← chain 0 c₃
    let ⟨(whens, thens), c₅, _⟩ ← branches c₄
    return ⟨(condition :: whens, result :: thens), c₅, by omega⟩
termination_by 16 * c.length
decreasing_by
  · simp only [levels]; omega
  · simp only [levels]; omega
  · omega

/-- Expressions with commas between them, at least one. -/
def expressions (c : Cursor) : Parsed (List Expr) c.length := do
  let ⟨e, c₁, _⟩ ← chain 0 c
  match c₁.accept? .comma with
  | none => return ⟨[e], c₁, by omega⟩
  | some ⟨_, c₂, _⟩ =>
    let ⟨es, c₃, _⟩ ← expressions c₂
    return ⟨e :: es, c₃, by omega⟩
termination_by 16 * c.length + 12
decreasing_by
  · simp only [levels]; omega
  · omega

/-- An optional clause: its keyword and an expression. -/
def clause (k : Keyword) (c : Cursor) : Parsed (Option Expr) (c.length + 1) :=
  match c.accept? (.keyword k) with
  | none => return ⟨none, c, by omega⟩
  | some ⟨_, c₁, _⟩ => do
    let ⟨e, c₂, _⟩ ← chain 0 c₁
    return ⟨some e, c₂, by omega⟩
termination_by 16 * c.length
decreasing_by all_goals (simp only [levels] at *; omega)

/-- A whole query, at the top or nested. -/
def select (c : Cursor) : Parsed Select c.length := do
  let ⟨start, c₁, _⟩ ← c.take (.keyword .select) "Expected 'select' at the start of a query"
  if c₁.at? (.keyword .distinct) then .error (c₁.unsupported "select distinct")
  else
    let ⟨columns, c₂, _⟩ ← selectList c₁
    let star := columns.isEmpty
    match c₂.accept? (.keyword .from) with
    | none =>
      if star then .error (c₂.invalid "Can't select '*' without a 'from' clause")
      else
        refuseSetOperation c₂
        return ⟨⟨start.pos, false, columns, none, [], none, [], none, [], none, none⟩, c₂,
          by omega⟩
    | some ⟨_, c₃, _⟩ =>
      let ⟨source, c₄, _⟩ ← tableRef c₃
      let ⟨joins, c₅, _⟩ ← joinList c₄
      let ⟨filter, c₆, _⟩ ← clause .where c₅
      let ⟨groupBy, c₇, _⟩ ← groupClause c₆
      let ⟨having, c₈, _⟩ ← clause .having c₇
      let ⟨orderBy, c₉, _⟩ ← orderClause c₈
      let ⟨limit, c₁₀, _⟩ ← clause .limit c₉
      let ⟨offset, c₁₁, _⟩ ← clause .offset c₁₀
      refuseSetOperation c₁₁
      return ⟨⟨start.pos, star, columns, some source, joins, filter, groupBy, having, orderBy,
        limit, offset⟩, c₁₁, by omega⟩
termination_by 16 * c.length

/-- What is selected: a star, which gives no columns, or columns. -/
def selectList (c : Cursor) : Parsed (List SelectColumn) c.length :=
  match c.accept? .star with
  | some ⟨_, c₁, _⟩ => return ⟨[], c₁, by omega⟩
  | none => selectColumns c
termination_by 16 * c.length + 13

/-- Columns with commas between them, at least one. -/
def selectColumns (c : Cursor) : Parsed (List SelectColumn) c.length := do
  let ⟨e, c₁, _⟩ ← chain 0 c
  let ⟨name, c₂, _⟩ ← label c₁
  match c₂.accept? .comma with
  | none => return ⟨[⟨e, name⟩], c₂, by omega⟩
  | some ⟨_, c₃, _⟩ =>
    let ⟨columns, c₄, _⟩ ← selectColumns c₃
    return ⟨⟨e, name⟩ :: columns, c₄, by omega⟩
termination_by 16 * c.length + 12
decreasing_by
  · simp only [levels]; omega
  · omega

/-- The optional `group by` clause. -/
def groupClause (c : Cursor) : Parsed (List Expr) (c.length + 1) :=
  match c.accept? (.keyword .group) with
  | none => return ⟨[], c, by omega⟩
  | some ⟨_, c₁, _⟩ => do
    let ⟨_, c₂, _⟩ ← c₁.take (.keyword .by) "Expected 'by' after 'group'"
    let ⟨keys, c₃, _⟩ ← expressions c₂
    return ⟨keys, c₃, by omega⟩
termination_by 16 * c.length

/-- A table name or a query in parentheses, and the name given to it. -/
def tableRef (c : Cursor) : Parsed TableRef c.length :=
  match c with
  | [] => .error ⟨.endOfInput, []⟩
  | t :: rest => do
    if t.kind = .identifier then
      let ⟨name, c₁, _⟩ ← label rest
      return ⟨⟨t.pos, .table t.lexeme, name⟩, c₁, by simp only [List.length_cons]; omega⟩
    else if t.kind = .leftParen ∧ Cursor.at? rest (.keyword .select) then
      let ⟨query, c₁, _⟩ ← select rest
      let ⟨_, c₂, _⟩ ← c₁.take .rightParen "Expected ')' after subquery"
      let ⟨name, c₃, _⟩ ← label c₂
      return ⟨⟨t.pos, .subquery query, name⟩, c₃, by simp only [List.length_cons]; omega⟩
    else
      .error (Cursor.unexpected (t :: rest) "Expected table name or subquery as table reference")
termination_by 16 * c.length
decreasing_by all_goals (simp only [List.length_cons] at *; omega)

/-- Any number of joins; a comma is a cross join. -/
def joinList (c : Cursor) : Parsed (List Join) (c.length + 1) :=
  match c with
  | [] => return ⟨[], [], Cursor.length_lt_succ []⟩
  | t :: rest =>
    match joinStart? t.kind with
    | none => return ⟨[], t :: rest, Cursor.length_lt_succ (t :: rest)⟩
    | some (kind, needsJoin) => do
      let ⟨_, c₁, _⟩ ← joinWords t kind needsJoin rest
      let ⟨table, c₂, _⟩ ← tableRef c₁
      let ⟨condition, c₃, _⟩ ← onClause kind c₂
      let ⟨joins, c₄, _⟩ ← joinList c₃
      return ⟨⟨t.pos, kind, table, condition⟩ :: joins, c₄,
        by simp only [List.length_cons]; omega⟩
termination_by 16 * c.length
decreasing_by all_goals (simp only [List.length_cons] at *; omega)

/-- The optional condition of a join; a cross join has none. -/
def onClause (kind : JoinKind) (c : Cursor) : Parsed (Option Expr) (c.length + 1) :=
  if kind = .cross then return ⟨none, c, by omega⟩ else clause .on c
termination_by 16 * c.length + 1

end

/-- An expression of any form. -/
def expression (c : Cursor) : Parsed Expr c.length := chain 0 c

end TableQuery.Grammar
