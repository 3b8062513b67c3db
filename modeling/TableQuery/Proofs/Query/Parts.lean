import TableQuery.Query.Tree

/-! # The parts of a query

What a query mentions, at whatever depth, and the induction over queries and expressions at once.
The trees nest through lists and options; both are stated through membership, so that no later
proof has to follow the nesting. -/

namespace TableQuery

/-! ## Mentions -/

/-- The places of a query where names stand. -/
inductive Mention where
  /-- A reference to a column, as an expression, a grouping key or a sort key. -/
  | column (ref : ColumnRef)
  /-- What rows are taken from: the name of a table, none for a subquery, and the label. -/
  | item (source label : Option String)
  deriving DecidableEq, Repr

/-- The names in a mention: a qualifier, or a table and a label. -/
def Mention.names : Mention → List String
  | .column ref => ref.table.toList
  | .item source label => source.toList ++ label.toList

/-- The names in the mention are of the sort `N`. -/
def Mention.Among (N : String → Prop) (m : Mention) : Prop := ∀ name ∈ m.names, N name

/-- The table that a reference names; a subquery has no name. -/
def TableRef.name? : TableRef → Option String
  | ⟨_, .table name, _⟩ => some name
  | ⟨_, .subquery _, _⟩ => none

def TableRef.mention (ref : TableRef) : Mention := .item ref.name? ref.label

mutual

/-- All mentions in an expression. The callee of a call is a function and no column. -/
def Expr.mentions : Expr → List Mention
  | .literal _ _ => []
  | .column ref => [.column ref]
  | .binary _ _ left right => left.mentions ++ right.mentions
  | .logical _ _ left right => left.mentions ++ right.mentions
  | .not _ operand => operand.mentions
  | .negate _ operand => operand.mentions
  | .between _ value low high => value.mentions ++ low.mentions ++ high.mentions
  | .member _ value items => value.mentions ++ eachMentions items
  | .like _ value pattern _ => value.mentions ++ pattern.mentions
  | .isNull _ operand => operand.mentions
  | .case _ whens thens otherwise =>
    eachMentions whens ++ eachMentions thens ++ optionMentions otherwise
  | .call _ _ args _ => eachMentions args
  | .group _ inner => inner.mentions
  | .existence _ query => query.mentions
  | .subquery query => query.mentions

def eachMentions : List Expr → List Mention
  | [] => []
  | expr :: rest => expr.mentions ++ eachMentions rest

def optionMentions : Option Expr → List Mention
  | none => []
  | some expr => expr.mentions

def columnsMentions : List SelectColumn → List Mention
  | [] => []
  | ⟨expr, _⟩ :: rest => expr.mentions ++ columnsMentions rest

def TableRef.mentions : TableRef → List Mention
  | ⟨pos, .table name, label⟩ => [TableRef.mention ⟨pos, .table name, label⟩]
  | ⟨pos, .subquery query, label⟩ =>
    TableRef.mention ⟨pos, .subquery query, label⟩ :: query.mentions

def sourceMentions : Option TableRef → List Mention
  | none => []
  | some ref => ref.mentions

def joinsMentions : List Join → List Mention
  | [] => []
  | ⟨_, _, ref, condition⟩ :: rest =>
    ref.mentions ++ optionMentions condition ++ joinsMentions rest

/-- All mentions in a query, those in nested queries included. -/
def Select.mentions : Select → List Mention
  | ⟨_, _, columns, source, joins, filter, groupBy, having, orderBy, limit, offset⟩ =>
    columnsMentions columns ++ sourceMentions source ++ joinsMentions joins ++
      optionMentions filter ++ eachMentions groupBy ++ optionMentions having ++
      orderBy.map (fun key => Mention.column key.column) ++ optionMentions limit ++
      optionMentions offset

end

theorem mem_eachMentions {m : Mention} {exprs : List Expr} :
    m ∈ eachMentions exprs ↔ ∃ expr ∈ exprs, m ∈ expr.mentions := by
  induction exprs with
  | nil => simp [eachMentions]
  | cons expr rest ih => simp [eachMentions, ih]

theorem mem_optionMentions {m : Mention} {expr? : Option Expr} :
    m ∈ optionMentions expr? ↔ ∃ expr, expr? = some expr ∧ m ∈ expr.mentions := by
  cases expr? <;> simp [optionMentions]

theorem mem_columnsMentions {m : Mention} {columns : List SelectColumn} :
    m ∈ columnsMentions columns ↔ ∃ column ∈ columns, m ∈ column.expr.mentions := by
  induction columns with
  | nil => simp [columnsMentions]
  | cons column rest ih => cases column; simp [columnsMentions, ih]

theorem mem_joinsMentions {m : Mention} {joins : List Join} :
    m ∈ joinsMentions joins ↔
      ∃ join ∈ joins, m ∈ join.table.mentions ∨ m ∈ optionMentions join.condition := by
  induction joins with
  | nil => simp [joinsMentions]
  | cons join rest ih => cases join; simp [joinsMentions, ih, or_assoc]

theorem TableRef.mention_mem (ref : TableRef) : ref.mention ∈ ref.mentions := by
  obtain ⟨pos, source | source, label⟩ := ref <;> simp [TableRef.mentions]

theorem TableRef.mem_mentions_of_subquery {ref : TableRef} {query : Select} {m : Mention}
    (hs : ref.source = .subquery query) (hm : m ∈ query.mentions) : m ∈ ref.mentions := by
  obtain ⟨pos, source, label⟩ := ref
  cases hs
  exact List.mem_cons_of_mem _ hm

/-- All mentions in the parts of a query are fit. -/
structure Select.PartsFit (fits : Mention → Prop) (query : Select) : Prop where
  columns : ∀ column ∈ query.columns, ∀ m ∈ column.expr.mentions, fits m
  source : ∀ ref, query.source = some ref → ∀ m ∈ ref.mentions, fits m
  joins : ∀ join ∈ query.joins, ∀ m ∈ join.table.mentions, fits m
  conditions : ∀ join ∈ query.joins, ∀ m ∈ optionMentions join.condition, fits m
  filter : ∀ m ∈ optionMentions query.filter, fits m
  groupBy : ∀ ref, .column ref ∈ query.groupBy → fits (.column ref)
  having : ∀ m ∈ optionMentions query.having, fits m
  orderBy : ∀ key ∈ query.orderBy, fits (.column key.column)
  limit : ∀ m ∈ optionMentions query.limit, fits m
  offset : ∀ m ∈ optionMentions query.offset, fits m

theorem Select.partsFit {fits : Mention → Prop} {query : Select}
    (h : ∀ m ∈ query.mentions, fits m) : query.PartsFit fits := by
  cases query
  simp only [Select.mentions, List.mem_append, or_imp, forall_and] at h
  obtain ⟨⟨⟨⟨⟨⟨⟨⟨hc, hs⟩, hj⟩, hf⟩, hg⟩, hh⟩, ho⟩, hl⟩, ht⟩ := h
  exact
    { columns := fun column hcol m hm => hc m (mem_columnsMentions.mpr ⟨column, hcol, hm⟩)
      source := fun ref href m hm => by
        subst href
        exact hs m hm
      joins := fun join hjoin m hm => hj m (mem_joinsMentions.mpr ⟨join, hjoin, .inl hm⟩)
      conditions := fun join hjoin m hm => hj m (mem_joinsMentions.mpr ⟨join, hjoin, .inr hm⟩)
      filter := hf
      groupBy := fun ref href =>
        hg _ (mem_eachMentions.mpr ⟨.column ref, href, List.mem_singleton.mpr rfl⟩)
      having := hh
      orderBy := fun key hkey => ho _ (List.mem_map.mpr ⟨key, hkey, rfl⟩)
      limit := hl
      offset := ht }

/-! ## Induction -/

/-- What an induction may assume of the parts of a query. -/
structure Select.PartsHold (P : Expr → Prop) (Q : Select → Prop) (query : Select) : Prop where
  columns : ∀ column ∈ query.columns, P column.expr
  source : ∀ ref, query.source = some ref → ∀ inner, ref.source = .subquery inner → Q inner
  joins : ∀ join ∈ query.joins, ∀ inner, join.table.source = .subquery inner → Q inner
  conditions : ∀ join ∈ query.joins, ∀ expr, join.condition = some expr → P expr
  filter : ∀ expr, query.filter = some expr → P expr
  having : ∀ expr, query.having = some expr → P expr
  limit : ∀ expr, query.limit = some expr → P expr
  offset : ∀ expr, query.offset = some expr → P expr

theorem Select.PartsHold.mono {P P' : Expr → Prop} {Q : Select → Prop} {query : Select}
    (h : query.PartsHold P Q) (hp : ∀ expr, P expr → P' expr) : query.PartsHold P' Q where
  columns column hc := hp _ (h.columns column hc)
  source := h.source
  joins := h.joins
  conditions join hj expr he := hp expr (h.conditions join hj expr he)
  filter expr he := hp expr (h.filter expr he)
  having expr he := hp expr (h.having expr he)
  limit expr he := hp expr (h.limit expr he)
  offset expr he := hp expr (h.offset expr he)

/-- The steps of an induction over expressions and queries, one for each construct. -/
structure TreeSteps (P : Expr → Prop) (Q : Select → Prop) : Prop where
  literal : ∀ pos v, P (.literal pos v)
  column : ∀ ref, P (.column ref)
  binary : ∀ pos op left right, P left → P right → P (.binary pos op left right)
  logical : ∀ pos op left right, P left → P right → P (.logical pos op left right)
  not : ∀ pos operand, P operand → P (.not pos operand)
  negate : ∀ pos operand, P operand → P (.negate pos operand)
  between : ∀ pos value low high, P value → P low → P high → P (.between pos value low high)
  /-- An item that is a subquery stands for all rows of that query. -/
  member : ∀ pos value items, P value → (∀ item ∈ items, P item) →
    (∀ query, .subquery query ∈ items → Q query) → P (.member pos value items)
  like : ∀ pos value pattern ignoreCase, P value → P pattern →
    P (.like pos value pattern ignoreCase)
  isNull : ∀ pos operand, P operand → P (.isNull pos operand)
  case : ∀ pos whens thens otherwise, (∀ expr ∈ whens, P expr) → (∀ expr ∈ thens, P expr) →
    (∀ expr, otherwise = some expr → P expr) → P (.case pos whens thens otherwise)
  call : ∀ pos callee args star, (∀ arg ∈ args, P arg) → P (.call pos callee args star)
  group : ∀ pos inner, P inner → P (.group pos inner)
  existence : ∀ pos query, Q query → P (.existence pos query)
  subquery : ∀ query, Q query → P (.subquery query)
  select : ∀ query, Select.PartsHold P Q query → Q query

namespace TreeSteps

variable {P : Expr → Prop} {Q : Select → Prop}

mutual

theorem expr (h : TreeSteps P Q) : ∀ e : Expr, P e
  | .literal pos v => h.literal pos v
  | .column ref => h.column ref
  | .binary pos op left right => h.binary pos op left right (h.expr left) (h.expr right)
  | .logical pos op left right => h.logical pos op left right (h.expr left) (h.expr right)
  | .not pos operand => h.not pos operand (h.expr operand)
  | .negate pos operand => h.negate pos operand (h.expr operand)
  | .between pos value low high =>
    h.between pos value low high (h.expr value) (h.expr low) (h.expr high)
  | .member pos value items =>
    h.member pos value items (h.expr value) (h.exprs items) (h.queries items)
  | .like pos value pattern ignoreCase =>
    h.like pos value pattern ignoreCase (h.expr value) (h.expr pattern)
  | .isNull pos operand => h.isNull pos operand (h.expr operand)
  | .case pos whens thens otherwise =>
    h.case pos whens thens otherwise (h.exprs whens) (h.exprs thens) (h.expr? otherwise)
  | .call pos callee args star => h.call pos callee args star (h.exprs args)
  | .group pos inner => h.group pos inner (h.expr inner)
  | .existence pos query => h.existence pos query (h.query query)
  | .subquery query => h.subquery query (h.query query)

theorem exprs (h : TreeSteps P Q) : ∀ es : List Expr, ∀ e ∈ es, P e
  | [] => by simp
  | e :: rest => List.forall_mem_cons.mpr ⟨h.expr e, h.exprs rest⟩

theorem queries (h : TreeSteps P Q) : ∀ es : List Expr, ∀ query, .subquery query ∈ es → Q query
  | [] => by simp
  | e :: rest => by
    intro query hm
    rcases List.mem_cons.mp hm with he | hr
    · match e, he with
      | .subquery inner, he => cases he; exact h.query query
    · exact h.queries rest query hr

theorem expr? (h : TreeSteps P Q) : ∀ e? : Option Expr, ∀ e, e? = some e → P e
  | none => by simp
  | some e => by
    intro e' he
    cases he
    exact h.expr e

theorem columns (h : TreeSteps P Q) : ∀ columns : List SelectColumn, ∀ column ∈ columns,
    P column.expr
  | [] => by simp
  | ⟨e, _⟩ :: rest => List.forall_mem_cons.mpr ⟨h.expr e, h.columns rest⟩

theorem ref (h : TreeSteps P Q) : ∀ ref : TableRef, ∀ inner, ref.source = .subquery inner →
    Q inner
  | ⟨_, .table _, _⟩ => by simp
  | ⟨_, .subquery query, _⟩ => by
    intro inner hs
    cases hs
    exact h.query query

theorem ref? (h : TreeSteps P Q) : ∀ ref? : Option TableRef, ∀ ref, ref? = some ref →
    ∀ inner, ref.source = .subquery inner → Q inner
  | none => by simp
  | some ref => by
    intro ref' hr
    cases hr
    exact h.ref ref

theorem joins (h : TreeSteps P Q) : ∀ joins : List Join, ∀ join ∈ joins,
    (∀ inner, join.table.source = .subquery inner → Q inner) ∧
      ∀ e, join.condition = some e → P e
  | [] => by simp
  | ⟨_, _, ref, condition⟩ :: rest =>
    List.forall_mem_cons.mpr ⟨⟨h.ref ref, h.expr? condition⟩, h.joins rest⟩

theorem query (h : TreeSteps P Q) : ∀ query : Select, Q query
  | ⟨_, _, columns, source, joins, filter, _, having, _, limit, offset⟩ =>
    h.select _
      { columns := h.columns columns
        source := h.ref? source
        joins := fun join hj => (h.joins joins join hj).1
        conditions := fun join hj => (h.joins joins join hj).2
        filter := h.expr? filter
        having := h.expr? having
        limit := h.expr? limit
        offset := h.expr? offset }

end

theorem parts (h : TreeSteps P Q) (query : Select) : query.PartsHold P Q where
  columns column _ := h.expr column.expr
  source _ _ inner _ := h.query inner
  joins _ _ inner _ := h.query inner
  conditions _ _ expr _ := h.expr expr
  filter expr _ := h.expr expr
  having expr _ := h.expr expr
  limit expr _ := h.expr expr
  offset expr _ := h.expr expr

end TreeSteps

end TableQuery
