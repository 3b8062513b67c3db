import TableQuery.Proofs.Query.Parts

/-! # Properties at every depth

A property of expressions holds everywhere in a tree if it holds of each expression in it, those in
nested queries included. The balance of `case` is the one that evaluation relies on. -/

namespace TableQuery

/-- The expressions that stand directly in an expression. -/
def Expr.children : Expr → List Expr
  | .literal _ _ | .column _ | .existence _ _ | .subquery _ => []
  | .binary _ _ left right | .logical _ _ left right => [left, right]
  | .not _ operand | .negate _ operand | .isNull _ operand => [operand]
  | .between _ value low high => [value, low, high]
  | .member _ value items => value :: items
  | .like _ value pattern _ => [value, pattern]
  | .case _ whens thens otherwise => whens ++ thens ++ otherwise.toList
  | .call _ callee args _ => callee :: args
  | .group _ inner => [inner]

/-- The query that stands directly in an expression. -/
def Expr.childQuery? : Expr → Option Select
  | .existence _ query | .subquery query => some query
  | _ => none

/-- The query that a table reference stands for. -/
def TableRef.query? : TableRef → Option Select
  | ⟨_, .table _, _⟩ => none
  | ⟨_, .subquery query, _⟩ => some query

/-- The expressions that stand directly in a query. -/
def Select.children (query : Select) : List Expr :=
  query.columns.map (·.expr) ++ query.joins.filterMap (·.condition) ++ query.filter.toList ++
    query.groupBy ++ query.having.toList ++ query.limit.toList ++ query.offset.toList

/-- The table references of a query. -/
def Select.refs (query : Select) : List TableRef :=
  query.source.toList ++ query.joins.map (·.table)

mutual

/-- The property holds of the expression and of everything in it. -/
inductive Expr.Everywhere (P : Expr → Prop) : Expr → Prop where
  | intro {expr : Expr} (here : P expr)
    (children : ∀ child ∈ expr.children, Expr.Everywhere P child)
    (queries : ∀ query, expr.childQuery? = some query → Select.Everywhere P query) :
    Expr.Everywhere P expr

/-- The property holds of all expressions in the query. -/
inductive Select.Everywhere (P : Expr → Prop) : Select → Prop where
  | intro {query : Select} (children : ∀ child ∈ query.children, Expr.Everywhere P child)
    (queries : ∀ ref ∈ query.refs, ∀ inner, ref.query? = some inner → Select.Everywhere P inner) :
    Select.Everywhere P query

end

section

variable {P : Expr → Prop} {expr part : Expr} {inner body : Select}

theorem Expr.Everywhere.here (h : expr.Everywhere P) : P expr := by
  cases h
  assumption

theorem Expr.Everywhere.child (h : expr.Everywhere P) (hc : part ∈ expr.children) :
    part.Everywhere P := by
  cases h with
  | intro _ children _ => exact children part hc

theorem Expr.Everywhere.query (h : expr.Everywhere P) (hq : expr.childQuery? = some body) :
    body.Everywhere P := by
  cases h with
  | intro _ _ queries => exact queries body hq

theorem Select.Everywhere.child (h : inner.Everywhere P) (hc : part ∈ inner.children) :
    part.Everywhere P := by
  cases h with
  | intro children _ => exact children part hc

theorem Select.Everywhere.derived (h : inner.Everywhere P) {ref : TableRef}
    (hr : ref ∈ inner.refs) (hs : ref.source = .subquery body) : body.Everywhere P := by
  cases h with
  | intro _ queries =>
    obtain ⟨pos, source, label⟩ := ref
    cases hs
    exact queries _ hr body rfl

/-- What holds everywhere in a query holds everywhere in its parts. -/
theorem Select.Everywhere.parts (h : inner.Everywhere P) :
    inner.PartsHold (Expr.Everywhere P) (Select.Everywhere P) where
  columns column hc := h.child (by
    simp only [children, List.mem_append, List.mem_map, or_assoc]
    exact .inl ⟨column, hc, rfl⟩)
  source ref hr body hs := h.derived (List.mem_append_left _ (by simp [hr])) hs
  joins join hj body hs :=
    h.derived (List.mem_append_right _ (List.mem_map.mpr ⟨join, hj, rfl⟩)) hs
  conditions join hj expr he := h.child (by
    simp only [children, List.mem_append, List.mem_filterMap, or_assoc]
    exact .inr (.inl ⟨join, hj, he⟩))
  filter expr he := h.child (by simp [children, he])
  having expr he := h.child (by simp [children, he])
  limit expr he := h.child (by simp [children, he])
  offset expr he := h.child (by simp [children, he])

end

/-- A `case` has as many results as conditions. -/
def Expr.Balanced : Expr → Prop
  | .case _ whens thens _ => whens.length = thens.length
  | _ => True

end TableQuery
