/-!
The closed vocabularies of the query language: operators, connectives, kinds of joins and sort
directions, with the symbols that messages and table names use for them.
-/

namespace TableQuery

/-- Operators between two values. -/
inductive Operator where
  | equal
  | notEqual
  | less
  | greater
  | lessOrEqual
  | greaterOrEqual
  | plus
  | minus
  | times
  | divide
  | modulo
  deriving DecidableEq, Repr

def Operator.symbol : Operator → String
  | equal => "="
  | notEqual => "<>"
  | less => "<"
  | greater => ">"
  | lessOrEqual => "<="
  | greaterOrEqual => ">="
  | plus => "+"
  | minus => "-"
  | times => "*"
  | divide => "/"
  | modulo => "%"

/-- Operators between two truth values; the left one alone may decide. -/
inductive Connective where
  | and
  | or
  deriving DecidableEq, Repr

inductive JoinKind where
  | inner
  | left
  | right
  | full
  | cross
  deriving DecidableEq, Repr

def JoinKind.name : JoinKind → String
  | inner => "inner"
  | left => "left"
  | right => "right"
  | full => "full"
  | cross => "cross"

inductive Direction where
  | ascending
  | descending
  deriving DecidableEq, Repr

end TableQuery
