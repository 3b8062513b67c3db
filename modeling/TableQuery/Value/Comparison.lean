import TableQuery.Number.Basic
import TableQuery.QueryError

/-!
How values compare. There are three notions: equality, which every type has but which refuses two
different ones; the order of `between`, which only numbers and texts have; and the sort order, which
is total on each type and puts nulls first.

Texts compare by code point.
-/

namespace TableQuery.Value

/-! ## Equality -/

/-- Equality of two values. Two nulls are equal, and a null differs from everything else. -/
def equal (a b : Value) : Except QueryError Bool :=
  match a, b with
  | null, null => .ok true
  | null, _ | _, null => .ok false
  | number m, number n => .ok (m.equal n)
  | text s, text t => .ok (s == t)
  | boolean p, boolean q => .ok (p == q)
  | a, b => .error (.type (.equality a.kind b.kind))

/-- Equality that takes values of different types for unequal. -/
def same (a b : Value) : Bool :=
  match a.equal b with
  | .ok answer => answer
  | .error _ => false

/-! ## Order -/

/-- The order of two numbers or two texts. Nulls and NaNs have none. -/
def compare? (a b : Value) : Except QueryError (Option Ordering) :=
  match a, b with
  | null, _ | _, null => .ok none
  | number m, number n => .ok (m.compare? n)
  | text s, text t => .ok (some (compare s t))
  | a, b => .error (.type (.ordering a.kind b.kind))

/-- Whether a value lies between two bounds, both included; unknown without an order to either. -/
def between (value low high : Value) : Except QueryError Value := do
  let above ← value.compare? low
  let below ← value.compare? high
  match above, below with
  | some above, some below => return boolean (above != .lt && below != .gt)
  | _, _ => return null

/-! ## Sort order -/

/-- The sort order of two values of one type, and of null with anything. -/
def sortCompare? (a b : Value) : Option Ordering :=
  match a, b with
  | null, null => some .eq
  | null, _ => some .lt
  | _, null => some .gt
  | number m, number n => some (m.totalCompare n)
  | text s, text t => some (compare s t)
  | boolean p, boolean q => some (compare p q)
  | _, _ => none

end TableQuery.Value
