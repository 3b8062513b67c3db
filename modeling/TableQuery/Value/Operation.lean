import TableQuery.Number.Arithmetic
import TableQuery.Text.Lowercase
import TableQuery.Text.Wildcard
import TableQuery.Value.Comparison

/-!
What the operators of the query language do with values that are already there. A null operand makes
the result null, except that two values can always be tested for equality and that a truth value may
decide `and` or `or` alone.
-/

namespace TableQuery.Value
open Text

/-! ## Operators on numbers -/

/-- Arithmetic and ordering on numbers. Division and remainder refuse both zeros as divisors. -/
def onNumbers (op : Operator) (m n : Number) : Except QueryError Value :=
  match op with
  | .plus => .ok (number (m.add n))
  | .minus => .ok (number (m.sub n))
  | .times => .ok (number (m.mul n))
  | .divide => if n.isZero then .error .divisionByZero else .ok (number (m.div n))
  | .modulo => if n.isZero then .error .divisionByZero else .ok (number (m.rem n))
  | .less => .ok (boolean (m.less n))
  | .greater => .ok (boolean (n.less m))
  | .lessOrEqual => .ok (boolean (m.lessOrEqual n))
  | .greaterOrEqual => .ok (boolean (n.lessOrEqual m))
  | .equal => .ok (boolean (m.equal n))
  | .notEqual => .ok (boolean (!m.equal n))

/-- An operator that needs numbers, on any two values. -/
def numeric (op : Operator) (a b : Value) : Except QueryError Value :=
  if a.isNull || b.isNull then .ok null
  else match a.number?, b.number? with
    | some m, some n => onNumbers op m n
    | _, _ => .error (.type (.operands op a.kind b.kind))

/-- A binary operator on any two values. -/
def binary (op : Operator) (a b : Value) : Except QueryError Value :=
  match op with
  | .equal => (a.equal b).map boolean
  | .notEqual => (a.equal b).map fun answer => boolean !answer
  | op => numeric op a b

/-- The opposite of a number. -/
def negate : Value → Except QueryError Value
  | number n => .ok (number n.negate)
  | null => .ok null
  | v => .error (.type (.minusOperand v.kind))

/-! ## Truth values -/

/-- The truth value of a condition; null is unknown. -/
def truth? : Value → Except QueryError (Option Bool)
  | boolean b => .ok (some b)
  | null => .ok none
  | v => .error (.type (.condition v))

/-- A condition holds only where it is known to. -/
def holds (v : Value) : Except QueryError Bool := do
  return (← v.truth?).getD false

/-- The answer of a connective that its left operand alone decides. -/
def decided? (op : Connective) (left : Option Bool) : Option Bool :=
  match op, left with
  | .and, some false => some false
  | .or, some true => some true
  | _, _ => none

/-- Conjunction and disjunction of truth values that may be unknown. -/
def connect (op : Connective) (left right : Option Bool) : Value :=
  match op with
  | .and =>
    match left, right with
    | some false, _ | _, some false => boolean false
    | some true, some true => boolean true
    | _, _ => null
  | .or =>
    match left, right with
    | some true, _ | _, some true => boolean true
    | some false, some false => boolean false
    | _, _ => null

/-- The opposite of a truth value. -/
def not : Value → Except QueryError Value
  | boolean b => .ok (boolean !b)
  | null => .ok null
  | v => .error (.type (.notOperand v.kind))

/-! ## Texts -/

/-- Whether a text is one that a wildcard pattern describes. Without regard to case, both are
lower-cased first. -/
def like (ignoreCase : Bool) (value pattern : Value) : Except QueryError Value :=
  match value, pattern with
  | null, _ | _, null => .ok null
  | text s, text p =>
    let fold (t : String) : List Char := (if ignoreCase then lowercase t else t).toList
    .ok (boolean (Wildcard.describes (fold s) (fold p)))
  | value, pattern => .error (.type (.likeOperands value.kind pattern.kind))

end TableQuery.Value
