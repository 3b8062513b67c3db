import TableQuery.Proofs.Query.Grammar
import TableQuery.Text.Basic

/-! # Queries written down

The tokens that stand for a tree, read off the tree alone. Brackets stand around nested queries and
where the tree has them, and nowhere else; a test with a `not` around it is written with the `not`
inside. The tokens have all one position, and so has the tree without its positions. -/

namespace TableQuery

/-! ## Tokens -/

namespace Token

def symbol (kind : TokenKind) (lexeme : String) : Token := ⟨kind, lexeme, none, .start⟩

def word (k : Keyword) : Token := symbol (.keyword k) k.word

def name (text : String) : Token := symbol .identifier text

/-- The token of a value, as the scanner makes it. -/
def ofValue : Value → Token
  | .null => { word .null with literal := some .null }
  | .boolean true => { word .true with literal := some (.boolean true) }
  | .boolean false => { word .false with literal := some (.boolean false) }
  | .number n => ⟨.number, n.text, some (.number n), .start⟩
  | .text s =>
    ⟨.string, String.ofList (Text.Quoted.encode s.toList), some (.text s), .start⟩

/-- The kind of token that an operator is. -/
def operatorKind : Operator → TokenKind
  | .equal => .equal
  | .notEqual => .notEqual
  | .less => .less
  | .greater => .greater
  | .lessOrEqual => .lessEqual
  | .greaterOrEqual => .greaterEqual
  | .plus => .plus
  | .minus => .minus
  | .times => .star
  | .divide => .slash
  | .modulo => .percent

def ofOperator (op : Operator) : Token := symbol (operatorKind op) op.symbol

def ofConnective : Connective → Token
  | .and => word .and
  | .or => word .or

/-- The first word of a join. -/
def ofJoin : JoinKind → Token
  | .inner => word .inner
  | .left => word .left
  | .right => word .right
  | .full => word .full
  | .cross => word .cross

def ofDirection : Direction → Token
  | .ascending => word .asc
  | .descending => word .desc

def inParens (tokens : List Token) : List Token :=
  symbol .leftParen "(" :: (tokens ++ [symbol .rightParen ")"])

def withCommas (items : List (List Token)) : List Token :=
  [symbol .comma ","].intercalate items

/-- The word that makes a test its opposite. -/
def refusal (refused : Bool) : List Token := if refused then [word .not] else []

/-- A name behind `as`. -/
def label : Option String → List Token
  | none => []
  | some text => [word .as, name text]

/-- A keyword and what stands behind it, if anything does. -/
def clause (k : Keyword) : Option (List Token) → List Token
  | none => []
  | some tokens => word k :: tokens

/-- What is selected or given to a call: a star or a list. -/
def listing (star : Bool) (items : List (List Token)) : List Token :=
  if star then [symbol .star "*"] else withCommas items

/-- The keys behind `group by`. -/
def grouping (keys : List (List Token)) : List Token :=
  if keys.isEmpty then [] else word .group :: word .by :: withCommas keys

/-- Conditions and results in turn. -/
def branches (whens thens : List (List Token)) : List Token :=
  (List.zipWith (fun condition result => word .when :: (condition ++ word .then :: result))
    whens thens).flatten

end Token

def ColumnRef.written (ref : ColumnRef) : List Token :=
  match ref.table with
  | none => [.name ref.name]
  | some table => [.name table, .symbol .dot ".", .name ref.name]

def OrderKey.written (key : OrderKey) : List Token :=
  key.column.written ++ [.ofDirection key.direction]

/-- The sort keys behind `order by`. -/
def OrderKey.clause (keys : List OrderKey) : List Token :=
  if keys.isEmpty then []
  else .word .order :: .word .by :: Token.withCommas (keys.map (·.written))

/-! ## Trees -/

mutual

/-- The tokens of an expression. If it is a test, `refused` asks for those of its opposite. -/
def Expr.written (refused : Bool) : Expr → List Token
  | .literal _ v => [.ofValue v]
  | .column ref => ref.written
  | .binary _ op left right => left.written false ++ .ofOperator op :: right.written false
  | .logical _ op left right => left.written false ++ .ofConnective op :: right.written false
  | .not _ operand =>
    if operand.isTest then operand.written true else .word .not :: operand.written false
  | .negate _ operand => .symbol .minus "-" :: operand.written false
  | .between _ value low high =>
    value.written false ++ (Token.refusal refused ++
      .word .between :: (low.written false ++ .word .and :: high.written false))
  | .member _ value items =>
    value.written false ++ (Token.refusal refused ++
      .word .in :: Token.inParens (Token.withCommas (writtenEach items)))
  | .like _ value pattern ignoreCase =>
    value.written false ++ (Token.refusal refused ++
      .word (if ignoreCase then .ilike else .like) :: pattern.written false)
  | .isNull _ operand =>
    operand.written false ++ .word .is :: (Token.refusal refused ++ [.word .null])
  | .case _ whens thens otherwise =>
    .word .case :: (Token.branches (writtenEach whens) (writtenEach thens) ++
      (Token.clause .else (writtenOption otherwise) ++ [.word .end]))
  | .call _ callee args star =>
    callee.written false ++
      Token.inParens (Token.listing star (writtenEach args))
  | .group _ inner => Token.inParens (inner.written false)
  | .existence _ query => .word .exists :: Token.inParens query.written
  | .subquery query => Token.inParens query.written

def writtenEach : List Expr → List (List Token)
  | [] => []
  | expr :: rest => expr.written false :: writtenEach rest

def writtenOption : Option Expr → Option (List Token)
  | none => none
  | some expr => some (expr.written false)

def writtenColumns : List SelectColumn → List (List Token)
  | [] => []
  | ⟨expr, label⟩ :: rest => (expr.written false ++ Token.label label) :: writtenColumns rest

def TableRef.written : TableRef → List Token
  | ⟨_, .table name, label⟩ => .name name :: Token.label label
  | ⟨_, .subquery query, label⟩ => Token.inParens query.written ++ Token.label label

def writtenSource : Option TableRef → Option (List Token)
  | none => none
  | some ref => some ref.written

def writtenJoins : List Join → List Token
  | [] => []
  | ⟨_, kind, ref, condition⟩ :: rest =>
    .ofJoin kind :: .word .join ::
      (ref.written ++ (Token.clause .on (writtenOption condition) ++ writtenJoins rest))

/-- The tokens of a query, those of nested queries included. -/
def Select.written : Select → List Token
  | ⟨_, star, columns, source, joins, filter, groupBy, having, orderBy, limit, offset⟩ =>
    .word .select ::
      (Token.listing star (writtenColumns columns) ++
      (Token.clause .from (writtenSource source) ++ (writtenJoins joins ++
      (Token.clause .where (writtenOption filter) ++
      (Token.grouping (writtenEach groupBy) ++
      (Token.clause .having (writtenOption having) ++ (OrderKey.clause orderBy ++
      (Token.clause .limit (writtenOption limit) ++
      Token.clause .offset (writtenOption offset)))))))))

end

/-! ## Trees without positions -/

def ColumnRef.unplaced (ref : ColumnRef) : ColumnRef := { ref with pos := .start }

def OrderKey.unplaced (key : OrderKey) : OrderKey := { key with column := key.column.unplaced }

mutual

/-- The expression with one position in all places. -/
def Expr.unplaced : Expr → Expr
  | .literal _ v => .literal .start v
  | .column ref => .column ref.unplaced
  | .binary _ op left right => .binary .start op left.unplaced right.unplaced
  | .logical _ op left right => .logical .start op left.unplaced right.unplaced
  | .not _ operand => .not .start operand.unplaced
  | .negate _ operand => .negate .start operand.unplaced
  | .between _ value low high => .between .start value.unplaced low.unplaced high.unplaced
  | .member _ value items => .member .start value.unplaced (unplacedEach items)
  | .like _ value pattern ignoreCase => .like .start value.unplaced pattern.unplaced ignoreCase
  | .isNull _ operand => .isNull .start operand.unplaced
  | .case _ whens thens otherwise =>
    .case .start (unplacedEach whens) (unplacedEach thens) (unplacedOption otherwise)
  | .call _ callee args star => .call .start callee.unplaced (unplacedEach args) star
  | .group _ inner => .group .start inner.unplaced
  | .existence _ query => .existence .start query.unplaced
  | .subquery query => .subquery query.unplaced

def unplacedEach : List Expr → List Expr
  | [] => []
  | expr :: rest => expr.unplaced :: unplacedEach rest

def unplacedOption : Option Expr → Option Expr
  | none => none
  | some expr => some expr.unplaced

def unplacedColumns : List SelectColumn → List SelectColumn
  | [] => []
  | ⟨expr, label⟩ :: rest => ⟨expr.unplaced, label⟩ :: unplacedColumns rest

def TableRef.unplaced : TableRef → TableRef
  | ⟨_, .table name, label⟩ => ⟨.start, .table name, label⟩
  | ⟨_, .subquery query, label⟩ => ⟨.start, .subquery query.unplaced, label⟩

def unplacedSource : Option TableRef → Option TableRef
  | none => none
  | some ref => some ref.unplaced

def unplacedJoins : List Join → List Join
  | [] => []
  | ⟨_, kind, ref, condition⟩ :: rest =>
    ⟨.start, kind, ref.unplaced, unplacedOption condition⟩ :: unplacedJoins rest

/-- The query with one position in all places, at every depth. -/
def Select.unplaced : Select → Select
  | ⟨_, star, columns, source, joins, filter, groupBy, having, orderBy, limit, offset⟩ =>
    ⟨.start, star, unplacedColumns columns, unplacedSource source, unplacedJoins joins,
      unplacedOption filter, unplacedEach groupBy, unplacedOption having,
      orderBy.map (·.unplaced), unplacedOption limit, unplacedOption offset⟩

end

/-! ## Equations -/

theorem Token.inParens_append (tokens r : List Token) :
    inParens tokens ++ r = symbol .leftParen "(" :: (tokens ++ symbol .rightParen ")" :: r) := by
  simp [inParens]

theorem Token.withCommas_singleton (item : List Token) : withCommas [item] = item :=
  List.intercalate_singleton

theorem Token.withCommas_cons (item next : List Token) (items : List (List Token)) :
    withCommas (item :: next :: items) =
      item ++ symbol .comma "," :: withCommas (next :: items) := by
  simp [withCommas, List.intercalate_cons_cons]

theorem Token.branches_cons (condition result : List Token) (whens thens : List (List Token)) :
    branches (condition :: whens) (result :: thens) =
      word .when :: (condition ++ word .then :: (result ++ branches whens thens)) := by
  simp [branches]

/-- A column of a select list. -/
def SelectColumn.written (column : SelectColumn) : List Token :=
  column.expr.written false ++ Token.label column.label

def SelectColumn.unplaced (column : SelectColumn) : SelectColumn :=
  { column with expr := column.expr.unplaced }

section

variable (exprs : List Expr) (expr? : Option Expr) (columns : List SelectColumn)

@[simp] theorem writtenEach_eq : writtenEach exprs = exprs.map (·.written false) := by
  induction exprs with
  | nil => rfl
  | cons expr rest ih => simp [writtenEach, ih]

@[simp] theorem writtenOption_eq : writtenOption expr? = expr?.map (·.written false) := by
  cases expr? <;> rfl

@[simp] theorem unplacedEach_eq : unplacedEach exprs = exprs.map (·.unplaced) := by
  induction exprs with
  | nil => rfl
  | cons expr rest ih => simp [unplacedEach, ih]

@[simp] theorem unplacedOption_eq : unplacedOption expr? = expr?.map (·.unplaced) := by
  cases expr? <;> rfl

@[simp] theorem writtenColumns_eq : writtenColumns columns = columns.map (·.written) := by
  induction columns with
  | nil => rfl
  | cons column rest ih => cases column; simp [writtenColumns, SelectColumn.written, ih]

@[simp] theorem unplacedColumns_eq : unplacedColumns columns = columns.map (·.unplaced) := by
  induction columns with
  | nil => rfl
  | cons column rest ih => cases column; simp [unplacedColumns, SelectColumn.unplaced, ih]

end

namespace Expr

variable (refused : Bool) (pos : Position) (ref : ColumnRef) (operand : Expr) (query : Select)

theorem written_column : (column ref).written refused = ref.written := rfl

theorem written_isNull : (isNull pos operand).written refused =
    operand.written false ++ .word .is :: (Token.refusal refused ++ [.word .null]) := rfl

theorem written_case (whens thens : List Expr) (otherwise : Option Expr) :
    (case pos whens thens otherwise).written refused =
      .word .case :: (Token.branches (writtenEach whens) (writtenEach thens) ++
        (Token.clause .else (writtenOption otherwise) ++ [.word .end])) := rfl

theorem written_call (args : List Expr) (star : Bool) :
    (call pos operand args star).written refused =
      operand.written false ++ Token.inParens (Token.listing star (writtenEach args)) := rfl

theorem written_group :
    (group pos operand).written refused = Token.inParens (operand.written false) := rfl

theorem written_existence :
    (existence pos query).written refused = .word .exists :: Token.inParens query.written := rfl

theorem written_subquery : (subquery query).written refused = Token.inParens query.written := rfl

end Expr

/-- The clauses of a query with a from item in front of other tokens. -/
theorem Select.written_append {query : Select} {ref : TableRef} (hs : query.source = some ref)
    (r : List Token) :
    query.written ++ r =
      .word .select :: (Token.listing query.star (query.columns.map (·.written)) ++
      .word .from :: (ref.written ++ (writtenJoins query.joins ++
      (Token.clause .where (query.filter.map (·.written false)) ++
      (Token.grouping (query.groupBy.map (·.written false)) ++
      (Token.clause .having (query.having.map (·.written false)) ++
      (OrderKey.clause query.orderBy ++
      (Token.clause .limit (query.limit.map (·.written false)) ++
      (Token.clause .offset (query.offset.map (·.written false)) ++ r))))))))) := by
  cases query
  cases hs
  simp [written, writtenSource, Token.clause.eq_2]

theorem Select.unplaced_eq (query : Select) :
    query.unplaced = ⟨.start, query.star, query.columns.map (·.unplaced),
      query.source.map (·.unplaced), unplacedJoins query.joins, query.filter.map (·.unplaced),
      query.groupBy.map (·.unplaced), query.having.map (·.unplaced),
      query.orderBy.map (·.unplaced), query.limit.map (·.unplaced),
      query.offset.map (·.unplaced)⟩ := by
  obtain ⟨pos, star, columns, source, joins, filter, groupBy, having, orderBy, limit, offset⟩ :=
    query
  cases source <;> simp [unplaced, unplacedSource]

end TableQuery
