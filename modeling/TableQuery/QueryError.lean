import TableQuery.Query.Cursor
import TableQuery.Query.Operator

/-!
Everything that can go wrong between query text and result. Each error is recorded by its cause; the
wording of all of them is in the `message` functions below and nowhere else.
-/

namespace TableQuery

/-! ## Causes -/

/-- A value of the wrong type. -/
inductive TypeFault where
  /-- An arithmetic or ordering operator needs two numbers. -/
  | operands (op : Operator) (left right : Kind)
  | equality (left right : Kind)
  | ordering (left right : Kind)
  | condition (value : Value)
  | notOperand (kind : Kind)
  | minusOperand (kind : Kind)
  | likeOperands (value pattern : Kind)
  /-- A sort key has values of two types; keys count from 1. -/
  | sortKey (position : Nat) (first other : Kind)
  | aggregated (function : String) (kind : Kind)
  | rounded (kind : Kind)
  | roundPlaces (value : Value)
  | madeInteger (kind : Kind)
  | rowCount (value : Value)
  /-- A query in the place of a value or list must have one column. -/
  | subqueryColumns (count : Nat)
  /-- A function that a caller has registered tells in words of its own what it cannot take. -/
  | reported (text : String)
  deriving DecidableEq, Repr

/-- A grouped query that is put together wrongly. -/
inductive GroupFault where
  | havingAlone (pos : Position)
  | keyNotColumn (pos : Position)
  | neitherKeyNorAggregate (pos : Position)
  | ungrouped (column : String)
  deriving DecidableEq, Repr

/-- What has to be given a name. -/
inductive Unnamed where
  | joinedTable (table : String) (pos : Position)
  | subquery (pos : Position)
  deriving DecidableEq, Repr

/-- How many arguments a function takes. -/
inductive ArgumentCount where
  | exactly (n : Nat)
  | atMostOne
  | between (least most : Nat)
  deriving DecidableEq, Repr

/-- A row whose values do not fit its columns. -/
inductive RowFault where
  | lengths (table : String) (columns values : Nat)
  | noValue (column : String)
  deriving DecidableEq, Repr

/-- Data from outside that does not become a table, or a row that does not become a record. -/
inductive ConversionFault where
  | notArray (table : String)
  | notObject (table : String)
  | nestedValue
  | notNumber (field : String) (kind : Kind)
  | notText (field : String) (kind : Kind)
  | unreadable
  | invalidDocument
  deriving DecidableEq, Repr

inductive ExecutionFault where
  | caseBranches (pos : Position) (whens thens : Nat)
  | noSortKey
  | unnamedCall (pos : Position)
  /-- A function that a caller has registered tells in words of its own what has gone wrong. -/
  | reported (text : String)
  deriving DecidableEq, Repr

/-- The clauses that cut a result to some of its rows. -/
inductive SliceClause where
  | limit
  | offset
  deriving DecidableEq, Repr

/-- Why a query has no result. -/
inductive QueryError where
  | starSelect
  | tableNotFound (name : String)
  | columnNotFound (column : String)
  | ambiguousColumn (column : String)
  | unknownFunction (name : String)
  | aggregateOutsideGroup (name : String)
  | argumentCount (function : String) (expected : ArgumentCount) (actual : Nat)
  | malformedGroup (fault : GroupFault)
  | groupingKey (value : Value)
  | slice (clause : SliceClause) (reason : QueryError)
  /-- A column where there is no row. -/
  | noRow (column : String)
  | joinKind (kind : JoinKind) (pos : Position)
  | joinCondition (kind : JoinKind)
  | duplicateLabel (label : String)
  | missingLabel (subject : Unnamed)
  | type (fault : TypeFault)
  | divisionByZero
  | row (fault : RowFault)
  | scalarSubquery (rows : Nat)
  | conversion (fault : ConversionFault)
  | execution (fault : ExecutionFault)
  | parse (error : ParseError)
  deriving DecidableEq, Repr

/-! ## Wording -/

def TypeFault.message : TypeFault → String
  | operands op left right =>
    "operator " ++ op.symbol ++ " expects numbers, got " ++ left.name ++ " and " ++ right.name
  | equality left right => "can't compare " ++ left.name ++ " with " ++ right.name
  | ordering left right => "can't order " ++ left.name ++ " against " ++ right.name
  | condition value =>
    "expected a boolean condition, got " ++ value.kind.name ++ " " ++ value.shown
  | notOperand kind => "'not' expects a boolean, got " ++ kind.name
  | minusOperand kind => "'-' expects a number, got " ++ kind.name
  | likeOperands value pattern =>
    "'like' expects text operands, got " ++ value.name ++ " and " ++ pattern.name
  | sortKey position first other =>
    "order by key " ++ toString position ++ " mixes " ++ first.name ++ " and " ++ other.name ++
      " values"
  | aggregated function kind => function ++ " expects numbers, got " ++ kind.name
  | rounded kind => "round expects a number, got " ++ kind.name
  | roundPlaces value => "round places must be a non-negative integer, got " ++ value.shown
  | madeInteger kind => "toint expects a boolean or number, got " ++ kind.name
  | rowCount value => "expected a non-negative integer, got " ++ value.shown
  | subqueryColumns count => "subquery must return one column, got " ++ toString count
  | reported text => text

def GroupFault.message : GroupFault → String
  | havingAlone pos => "'having' without 'group by' at " ++ pos.shown
  | keyNotColumn pos => "grouping key at " ++ pos.shown ++ " must be a column"
  | neitherKeyNorAggregate pos =>
    "only grouping keys and aggregates can be selected, found an expression at " ++ pos.shown
  | ungrouped column => column ++ " is neither a grouping key nor aggregated"

def Unnamed.message : Unnamed → String
  | joinedTable table pos => "joined table " ++ table ++ " at " ++ pos.shown
  | subquery pos => "subquery at " ++ pos.shown

def ArgumentCount.shown : ArgumentCount → String
  | exactly n => toString n
  | atMostOne => "0 or 1"
  | between least most => toString least ++ " to " ++ toString most

def RowFault.message : RowFault → String
  | lengths table columns values =>
    toString columns ++ " columns but " ++ toString values ++ " values in row of " ++ table
  | noValue column => "no value for column " ++ column

def ConversionFault.message : ConversionFault → String
  | notArray table => "table " ++ table ++ " must be a JSON array"
  | notObject table => "every row of table " ++ table ++ " must be a JSON object"
  | nestedValue => "nested arrays and objects can't be stored in a column"
  | notNumber field kind =>
    "field " ++ field ++ " holds " ++ kind.name ++ " where a number was expected"
  | notText field kind => "field " ++ field ++ " holds " ++ kind.name ++ " where text was expected"
  | unreadable => "can't read"
  | invalidDocument => "invalid JSON"

def ExecutionFault.message : ExecutionFault → String
  | caseBranches pos whens thens =>
    "case at " ++ pos.shown ++ " has " ++ toString whens ++ " 'when' and " ++ toString thens ++
      " 'then' branches"
  | noSortKey => "order by needs at least one column"
  | unnamedCall pos => "only named functions can be called at " ++ pos.shown
  | reported text => text

def SliceClause.name : SliceClause → String
  | limit => "limit"
  | offset => "offset"

def QueryError.message : QueryError → String
  | starSelect => "Star select isn't supported"
  | tableNotFound name => "Table not found: " ++ name
  | columnNotFound column => "Column not found: " ++ column
  | ambiguousColumn column => "Ambiguous column: " ++ column
  | unknownFunction name => "Unknown function: " ++ name
  | aggregateOutsideGroup name =>
    "Aggregate function " ++ name ++ " is only allowed in grouped queries"
  | argumentCount function expected actual =>
    "Function " ++ function ++ " expects " ++ expected.shown ++ " argument(s), got " ++
      toString actual
  | malformedGroup fault => "Malformed group by: " ++ fault.message
  | groupingKey value =>
    "Can't use " ++ value.kind.name ++ " value " ++ value.shown ++ " as a grouping key"
  | slice clause reason => "Invalid " ++ clause.name ++ ": " ++ reason.message
  | noRow column => "Unresolved variable: " ++ column
  | joinKind kind pos => "Unsupported join type: " ++ kind.name ++ " join at " ++ pos.shown
  | joinCondition kind => "Missing 'on' condition for " ++ kind.name ++ " join"
  | duplicateLabel label => "Alias " ++ label ++ " is already defined in this scope"
  | missingLabel subject => "Missing alias: " ++ subject.message
  | type fault => "Type error: " ++ fault.message
  | divisionByZero => "Division by zero"
  | row fault => "Invalid row: " ++ fault.message
  | scalarSubquery rows => "Scalar subquery returned " ++ toString rows ++ " rows"
  | conversion fault => "Conversion error: " ++ fault.message
  | execution fault => "Execution error: " ++ fault.message
  | parse error => "Parse error: " ++ error.message

end TableQuery
