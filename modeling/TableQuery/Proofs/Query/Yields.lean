import TableQuery.Proofs.Query.Grammar

/-! # What makes a rule succeed

For each rule the ways in which it succeeds: which tokens and which other rules have to come one
after the other. Where a rule reads as much as it can, the token behind says that it has ended. -/

namespace TableQuery

/-- The rule succeeds with the value and leaves the rest unread. -/
def Parsed.Yields {α : Type} {n : Nat} (outcome : Parsed α n) (a : α) (rest : Cursor) : Prop :=
  ∃ h : rest.length < n, outcome = .ok ⟨a, rest, h⟩

open Parsed

section

variable {α β : Type} {m n : Nat} {a : α} {b : β} {rest c : Cursor}

theorem Parsed.yields_ok (h : rest.length < n) : Yields (.ok ⟨a, rest, h⟩ : Parsed α n) a rest :=
  ⟨h, rfl⟩

theorem Parsed.Yields.bind {outcome : Parsed α n} {next : Step α n → Parsed β m}
    (h : Yields outcome a rest) (hn : ∀ h, Yields (next ⟨a, rest, h⟩) b c) :
    Yields (outcome >>= next) b c := by
  obtain ⟨hr, rfl⟩ := h
  exact hn hr

end

namespace Cursor

variable {c rest : Cursor} {t : Token} {kind : TokenKind}

theorem accept?_cons (rest : Cursor) (h : t.kind = kind) :
    accept? (t :: rest) kind = some ⟨t, rest, length_tail_lt t rest⟩ := if_pos h

theorem accept?_other (rest : Cursor) (h : t.kind ≠ kind) : accept? (t :: rest) kind = none :=
  if_neg h

theorem accept?_eq_none (h : ∀ t, c.head? = some t → t.kind ≠ kind) : c.accept? kind = none := by
  cases c with
  | nil => rfl
  | cons t rest => exact accept?_other rest (h t rfl)

theorem at?_eq_false (h : c.accept? kind = none) : c.at? kind = false := by
  cases c with
  | nil => rfl
  | cons t rest =>
    refine beq_false_of_ne fun hk => ?_
    rw [accept?_cons rest hk] at h
    cases h

theorem at?_cons (rest : Cursor) (h : t.kind = kind) : at? (t :: rest) kind = true := by
  simp [at?, current?, h]

theorem take_yields (rest : Cursor) (expectation : String) (h : t.kind = kind) :
    Yields (take (t :: rest) kind expectation) t rest := by
  unfold take
  rw [accept?_cons rest h]
  exact yields_ok _

end Cursor

namespace Grammar

open Cursor

variable {c c₁ c₂ c₃ rest : Cursor} {t u n l r : Token} {level : Nat} {ref : ColumnRef}
  {e left right subject low high pattern callee inner condition result : Expr}
  {es items args whens thens : List Expr} {otherwise : Option Expr} {query : Select}

/-! ## Operators -/

theorem chain_yields (hl : level < levels) (h : Yields (chain (level + 1) c) left c₁)
    (hr : Yields (chainRest level left c₁) e c₂) : Yields (chain level c) e c₂ := by
  unfold chain
  rw [if_pos hl]
  exact h.bind fun _ => hr.bind fun _ => yields_ok _

theorem chain_levels : chain levels c = signed c := by
  unfold chain
  rw [if_neg (Nat.lt_irrefl levels)]

theorem chainRest_stop (h : ∀ t, c.head? = some t → operatorNode? level t.kind = none) :
    Yields (chainRest level left c) left c := by
  unfold chainRest
  cases c with
  | nil => exact yields_ok _
  | cons t rest =>
    dsimp only
    rw [h t rfl]
    exact yields_ok _

theorem chainRest_operator {node : Position → Expr → Expr → Expr}
    (hn : operatorNode? level t.kind = some node) (hr : Yields (chain (level + 1) rest) right c₁)
    (h : Yields (chainRest level (node t.pos left right) c₁) e c₂) :
    Yields (chainRest level left (t :: rest)) e c₂ := by
  unfold chainRest
  dsimp only
  rw [hn]
  exact hr.bind fun _ => h.bind fun _ => yields_ok _

/-! ## Words in front -/

theorem signed_not (ht : t.kind = .keyword .not) (h : Yields (signed rest) e c) :
    Yields (signed (t :: rest)) (.not t.pos e) c := by
  unfold signed
  rw [accept?_cons rest ht]
  exact h.bind fun _ => yields_ok _

theorem signed_negate (ht : t.kind = .minus) (h : Yields (signed rest) e c) :
    Yields (signed (t :: rest)) (.negate t.pos e) c := by
  have hnot : accept? (t :: rest) (.keyword .not) = none := accept?_other rest (by simp [ht])
  unfold signed
  rw [hnot, accept?_cons rest ht]
  exact h.bind fun _ => yields_ok _

/-- A test begins with a primary form, so with neither `not` nor `-`. -/
theorem signed_tested (h : Yields (tested c) e c₁) : Yields (signed c) e c₁ := by
  have hprimary : ∃ callee c₂, Yields (primary c) callee c₂ := by
    obtain ⟨_, h⟩ := h
    unfold tested called at h
    cases hp : primary c with
    | error failure =>
      rw [hp] at h
      cases h
    | ok step => exact ⟨_, _, step.shorter, rfl⟩
  obtain ⟨_, _, _, hp⟩ := hprimary
  have hhead : ∀ kind, kind = .keyword .not ∨ kind = .minus → c.accept? kind = none := by
    intro kind hkind
    refine accept?_eq_none fun t ht hk => ?_
    cases c with
    | nil => cases ht
    | cons first rest =>
      cases ht
      unfold primary at hp
      rcases hkind with rfl | rfl
      · simp only [hk] at hp
        cases hp
      · simp only [hk] at hp
        cases hp
  unfold signed
  rw [hhead _ (.inl rfl), hhead _ (.inr rfl)]
  exact h

/-! ## Tests -/

theorem nullTests_stop (h : c.accept? (.keyword .is) = none) :
    Yields (nullTests subject c) subject c := by
  unfold nullTests
  rw [h]
  exact yields_ok _

theorem nullTests_null (ht : t.kind = .keyword .is) (hn : n.kind = .keyword .null)
    (h : Yields (nullTests (.isNull t.pos subject) rest) e c) :
    Yields (nullTests subject (t :: n :: rest)) e c := by
  have hnot : accept? (n :: rest) (.keyword .not) = none := accept?_other rest (by simp [hn])
  unfold nullTests
  rw [accept?_cons _ ht]
  dsimp only
  rw [hnot]
  exact (take_yields rest _ hn).bind fun _ => h.bind fun _ => yields_ok _

theorem nullTests_notNull (ht : t.kind = .keyword .is) (hu : u.kind = .keyword .not)
    (hn : n.kind = .keyword .null)
    (h : Yields (nullTests (.not u.pos (.isNull t.pos subject)) rest) e c) :
    Yields (nullTests subject (t :: u :: n :: rest)) e c := by
  unfold nullTests
  rw [accept?_cons _ ht]
  dsimp only
  rw [accept?_cons _ hu]
  exact (take_yields rest _ hn).bind fun _ => h.bind fun _ => yields_ok _

/-- Here a test of the subject begins, and it succeeds. -/
def TestYields (subject : Expr) (c : Cursor) (e : Expr) (rest : Cursor) : Prop :=
  ∃ outcome, test? subject c = some outcome ∧ Yields outcome e rest

theorem test_member (ht : t.kind = .keyword .in) (h : Yields (members rest) items c) :
    TestYields subject (t :: rest) (.member t.pos subject items) c := by
  unfold TestYields test?
  simp only [ht]
  exact ⟨_, rfl, h.bind fun _ => yields_ok _⟩

theorem test_between (ht : t.kind = .keyword .between)
    (hlow : Yields (chain sumLevel rest) low (u :: c)) (hu : u.kind = .keyword .and)
    (hhigh : Yields (chain sumLevel c) high c₁) :
    TestYields subject (t :: rest) (.between t.pos subject low high) c₁ := by
  unfold TestYields test?
  simp only [ht]
  exact ⟨_, rfl, hlow.bind fun _ => (take_yields c _ hu).bind fun _ => hhigh.bind fun _ =>
    yields_ok _⟩

theorem test_like {ignoreCase : Bool}
    (ht : t.kind = .keyword (if ignoreCase then .ilike else .like)) (h : Yields (chain sumLevel rest) pattern c) :
    TestYields subject (t :: rest) (.like t.pos subject pattern ignoreCase) c := by
  unfold TestYields test?
  cases ignoreCase with
  | false =>
    simp only [ht]
    exact ⟨_, rfl, h.bind fun _ => yields_ok _⟩
  | true =>
    simp only [ht]
    exact ⟨_, rfl, h.bind fun _ => yields_ok _⟩

theorem tested_plain (hs : Yields (called c) subject c₁) (hnot : c₁.accept? (.keyword .not) = none)
    (htest : test? subject c₁ = none) (h : Yields (nullTests subject c₁) e c₂) :
    Yields (tested c) e c₂ := by
  unfold tested
  refine hs.bind fun _ => ?_
  dsimp only
  rw [hnot]
  dsimp only
  rw [htest]
  exact h.bind fun _ => yields_ok _

theorem tested_test {test : Expr} (hs : Yields (called c) subject c₁)
    (hnot : c₁.accept? (.keyword .not) = none) (htest : TestYields subject c₁ test c₂)
    (h : Yields (nullTests test c₂) e c₃) : Yields (tested c) e c₃ := by
  obtain ⟨outcome, ho, htest⟩ := htest
  unfold tested
  refine hs.bind fun _ => ?_
  dsimp only
  rw [hnot]
  dsimp only
  rw [ho]
  exact htest.bind fun _ => h.bind fun _ => yields_ok _

theorem tested_refused {test : Expr} (hs : Yields (called c) subject (n :: c₁))
    (hn : n.kind = .keyword .not) (htest : TestYields subject c₁ test c₂)
    (h : Yields (nullTests (.not n.pos test) c₂) e c₃) : Yields (tested c) e c₃ := by
  obtain ⟨outcome, ho, htest⟩ := htest
  unfold tested
  refine hs.bind fun _ => ?_
  dsimp only
  rw [accept?_cons _ hn]
  dsimp only
  rw [ho]
  exact htest.bind fun _ => h.bind fun _ => yields_ok _

theorem members_yields (hl : l.kind = .leftParen) (hselect : rest.accept? (.keyword .select) = none)
    (hright : rest.accept? .rightParen = none) (h : Yields (expressions rest) items (r :: c))
    (hr : r.kind = .rightParen) : Yields (members (l :: rest)) items c := by
  unfold members
  refine (take_yields rest _ hl).bind fun _ => ?_
  dsimp only
  rw [if_neg (by simp [at?_eq_false hselect]), if_neg (by simp [at?_eq_false hright])]
  exact h.bind fun _ => (take_yields c _ hr).bind fun _ => yields_ok _

/-! ## Calls -/

theorem called_yields (h : Yields (primary c) callee c₁) (hr : Yields (callRest callee c₁) e c₂) :
    Yields (called c) e c₂ := by
  unfold called
  exact h.bind fun _ => hr.bind fun _ => yields_ok _

theorem callRest_stop (h : c.accept? .leftParen = none) : Yields (callRest callee c) callee c := by
  unfold callRest
  rw [h]
  exact yields_ok _

theorem callRest_call {star : Bool} (hl : l.kind = .leftParen)
    (ha : Yields (arguments rest) (args, star) (r :: c)) (hr : r.kind = .rightParen)
    (h : Yields (callRest (.call l.pos callee args star) c) e c₁) :
    Yields (callRest callee (l :: rest)) e c₁ := by
  unfold callRest
  rw [accept?_cons rest hl]
  exact ha.bind fun _ => (take_yields c _ hr).bind fun _ => h.bind fun _ => yields_ok _

theorem arguments_star (ht : t.kind = .star) : Yields (arguments (t :: rest)) ([], true) rest := by
  unfold arguments
  rw [accept?_cons rest ht]
  exact yields_ok _

theorem arguments_none (hr : r.kind = .rightParen) :
    Yields (arguments (r :: rest)) ([], false) (r :: rest) := by
  have hstar : accept? (r :: rest) .star = none := accept?_other rest (by simp [hr])
  unfold arguments
  rw [hstar]
  dsimp only
  rw [if_pos (at?_cons rest hr)]
  exact yields_ok _

theorem arguments_list (hstar : c.accept? .star = none) (hright : c.accept? .rightParen = none)
    (h : Yields (expressions c) args c₁) : Yields (arguments c) (args, false) c₁ := by
  unfold arguments
  rw [hstar]
  dsimp only
  rw [if_neg (by simp [at?_eq_false hright])]
  exact h.bind fun _ => yields_ok _

/-! ## Primary forms -/

/-- The kinds of tokens that are literals. -/
def literalKinds : List TokenKind :=
  [.number, .string, .keyword .true, .keyword .false, .keyword .null]

theorem primary_literal (ht : t.kind ∈ literalKinds) :
    Yields (primary (t :: rest)) (.literal t.pos (t.literal.getD .null)) rest := by
  unfold primary
  simp only [literalKinds, List.mem_cons, List.not_mem_nil, or_false] at ht
  rcases ht with ht | ht | ht | ht | ht
  all_goals
    simp only [ht]
    exact yields_ok _

theorem primary_column (ht : t.kind = .identifier) (h : Yields (columnRef (t :: rest)) ref c) :
    Yields (primary (t :: rest)) (.column ref) c := by
  unfold primary
  simp only [ht]
  exact h.bind fun _ => yields_ok _

theorem primary_group (hl : l.kind = .leftParen) (hselect : rest.accept? (.keyword .select) = none)
    (h : Yields (chain 0 rest) inner (r :: c)) (hr : r.kind = .rightParen) :
    Yields (primary (l :: rest)) (.group l.pos inner) c := by
  unfold primary
  simp only [hl]
  rw [if_neg (by simp [at?_eq_false hselect])]
  exact h.bind fun _ => (take_yields c _ hr).bind fun _ => yields_ok _

theorem primary_subquery (hl : l.kind = .leftParen) (ht : t.kind = .keyword .select)
    (h : Yields (select (t :: rest)) query (r :: c)) (hr : r.kind = .rightParen) :
    Yields (primary (l :: t :: rest)) (.subquery query) c := by
  unfold primary
  simp only [hl]
  rw [if_pos (at?_cons rest ht)]
  exact h.bind fun _ => (take_yields c _ hr).bind fun _ => yields_ok _

theorem primary_existence (ht : t.kind = .keyword .exists) (hl : l.kind = .leftParen)
    (h : Yields (select rest) query (r :: c)) (hr : r.kind = .rightParen) :
    Yields (primary (t :: l :: rest)) (.existence t.pos query) c := by
  unfold primary
  simp only [ht]
  exact (take_yields rest _ hl).bind fun _ => h.bind fun _ => (take_yields c _ hr).bind fun _ =>
    yields_ok _

theorem primary_case (ht : t.kind = .keyword .case)
    (hb : Yields (branches rest) (whens, thens) c₁) (hne : whens ≠ [])
    (ho : Yields (clause .else c₁) otherwise (u :: c)) (hu : u.kind = .keyword .end) :
    Yields (primary (t :: rest)) (.case t.pos whens thens otherwise) c := by
  unfold primary
  simp only [ht]
  refine hb.bind fun _ => ?_
  dsimp only
  rw [if_neg (by simpa using hne)]
  exact ho.bind fun _ => (take_yields c _ hu).bind fun _ => yields_ok _

theorem branches_stop (h : c.accept? (.keyword .when) = none) :
    Yields (branches c) ([], []) c := by
  unfold branches
  rw [h]
  exact yields_ok _

theorem branches_when (ht : t.kind = .keyword .when)
    (hc : Yields (chain 0 rest) condition (u :: c)) (hu : u.kind = .keyword .then)
    (hr : Yields (chain 0 c) result c₁) (h : Yields (branches c₁) (whens, thens) c₂) :
    Yields (branches (t :: rest)) (condition :: whens, result :: thens) c₂ := by
  unfold branches
  rw [accept?_cons rest ht]
  exact hc.bind fun _ => (take_yields c _ hu).bind fun _ => hr.bind fun _ => h.bind fun _ =>
    yields_ok _

theorem expressions_last (h : Yields (chain 0 c) e c₁) (hstop : c₁.accept? .comma = none) :
    Yields (expressions c) [e] c₁ := by
  unfold expressions
  refine h.bind fun _ => ?_
  dsimp only
  rw [hstop]
  exact yields_ok _

theorem expressions_more (h : Yields (chain 0 c) e (t :: c₁)) (ht : t.kind = .comma)
    (hes : Yields (expressions c₁) es c₂) : Yields (expressions c) (e :: es) c₂ := by
  unfold expressions
  refine h.bind fun _ => ?_
  dsimp only
  rw [accept?_cons c₁ ht]
  exact hes.bind fun _ => yields_ok _

/-! ## Clauses -/

variable {k : Keyword} {name : Option String} {column : ColumnRef} {columns : List SelectColumn}
  {table source : TableRef} {kind : JoinKind} {joins : List Join}

theorem clause_absent (h : c.accept? (.keyword k) = none) : Yields (clause k c) none c := by
  unfold clause
  rw [h]
  exact yields_ok _

theorem clause_given (ht : t.kind = .keyword k) (h : Yields (chain 0 rest) e c) :
    Yields (clause k (t :: rest)) (some e) c := by
  unfold clause
  rw [accept?_cons rest ht]
  exact h.bind fun _ => yields_ok _

theorem columnRef_plain (ht : t.kind = .identifier) (hdot : rest.accept? .dot = none) :
    Yields (columnRef (t :: rest)) ⟨t.pos, none, t.lexeme⟩ rest := by
  unfold columnRef
  refine (take_yields rest _ ht).bind fun _ => ?_
  dsimp only
  rw [hdot]
  exact yields_ok _

theorem columnRef_qualified (ht : t.kind = .identifier) (hu : u.kind = .dot)
    (hn : n.kind = .identifier) :
    Yields (columnRef (t :: u :: n :: rest)) ⟨n.pos, some t.lexeme, n.lexeme⟩ rest := by
  unfold columnRef
  refine (take_yields (u :: n :: rest) _ ht).bind fun _ => ?_
  dsimp only
  rw [accept?_cons (n :: rest) hu]
  exact (take_yields rest _ hn).bind fun _ => yields_ok _

theorem label_as (ht : t.kind = .keyword .as) (hn : n.kind = .identifier) :
    Yields (label (t :: n :: rest)) (some n.lexeme) rest := by
  unfold label
  rw [accept?_cons (n :: rest) ht]
  exact (take_yields rest _ hn).bind fun _ => yields_ok _

theorem label_absent (has : c.accept? (.keyword .as) = none)
    (hname : c.accept? .identifier = none) : Yields (label c) none c := by
  unfold label
  rw [has]
  dsimp only
  rw [hname]
  exact yields_ok _

theorem orderKeys_last {way : Direction} {h : c₂.length < c₁.length + 1}
    (hcolumn : Yields (columnRef c) column c₁) (hway : direction c₁ = ⟨way, c₂, h⟩)
    (hstop : c₂.accept? .comma = none) : Yields (orderKeys c) [⟨column, way⟩] c₂ := by
  unfold orderKeys
  refine hcolumn.bind fun _ => ?_
  dsimp only
  rw [hway]
  dsimp only
  rw [hstop]
  exact yields_ok _

theorem orderKeys_more {way : Direction} {keys : List OrderKey}
    {h : List.length (t :: c₂) < c₁.length + 1} (hcolumn : Yields (columnRef c) column c₁)
    (hway : direction c₁ = ⟨way, t :: c₂, h⟩) (ht : t.kind = .comma)
    (hkeys : Yields (orderKeys c₂) keys c₃) : Yields (orderKeys c) (⟨column, way⟩ :: keys) c₃ := by
  unfold orderKeys
  refine hcolumn.bind fun _ => ?_
  dsimp only
  rw [hway]
  dsimp only
  rw [accept?_cons c₂ ht]
  exact hkeys.bind fun _ => yields_ok _

theorem orderClause_absent (h : c.accept? (.keyword .order) = none) :
    Yields (orderClause c) [] c := by
  unfold orderClause
  rw [h]
  exact yields_ok _

theorem orderClause_given {keys : List OrderKey} (ht : t.kind = .keyword .order)
    (hu : u.kind = .keyword .by) (h : Yields (orderKeys rest) keys c) :
    Yields (orderClause (t :: u :: rest)) keys c := by
  unfold orderClause
  rw [accept?_cons (u :: rest) ht]
  exact (take_yields rest _ hu).bind fun _ => h.bind fun _ => yields_ok _

theorem groupClause_absent (h : c.accept? (.keyword .group) = none) :
    Yields (groupClause c) [] c := by
  unfold groupClause
  rw [h]
  exact yields_ok _

theorem groupClause_given (ht : t.kind = .keyword .group) (hu : u.kind = .keyword .by)
    (h : Yields (expressions rest) es c) : Yields (groupClause (t :: u :: rest)) es c := by
  unfold groupClause
  rw [accept?_cons (u :: rest) ht]
  exact (take_yields rest _ hu).bind fun _ => h.bind fun _ => yields_ok _

/-! ## From and joins -/

theorem tableRef_name (ht : t.kind = .identifier) (h : Yields (label rest) name c) :
    Yields (tableRef (t :: rest)) ⟨t.pos, .table t.lexeme, name⟩ c := by
  unfold tableRef
  dsimp only
  rw [if_pos ht]
  exact h.bind fun _ => yields_ok _

theorem tableRef_subquery (hl : l.kind = .leftParen) (ht : t.kind = .keyword .select)
    (hq : Yields (select (t :: rest)) query (r :: c)) (hr : r.kind = .rightParen)
    (h : Yields (label c) name c₁) :
    Yields (tableRef (l :: t :: rest)) ⟨l.pos, .subquery query, name⟩ c₁ := by
  unfold tableRef
  dsimp only
  rw [if_neg (by simp [hl]), if_pos ⟨hl, at?_cons rest ht⟩]
  exact hq.bind fun _ => (take_yields c _ hr).bind fun _ => h.bind fun _ => yields_ok _

theorem joinWords_join (start : Token) (kind : JoinKind) (ht : t.kind = .keyword .join) :
    Yields (joinWords start kind true (t :: rest)) () rest := by
  have houter : accept? (t :: rest) (.keyword .outer) = none := accept?_other rest (by simp [ht])
  unfold joinWords
  rw [if_pos rfl, houter, ite_self]
  exact (take_yields rest _ ht).bind fun _ => yields_ok _

theorem joinList_stop (h : ∀ t, c.head? = some t → joinStart? t.kind = none) :
    Yields (joinList c) [] c := by
  unfold joinList
  cases c with
  | nil => exact yields_ok _
  | cons t rest =>
    dsimp only
    rw [h t rfl]
    exact yields_ok _

theorem joinList_join {needsJoin : Bool} (ht : joinStart? t.kind = some (kind, needsJoin))
    (hw : Yields (joinWords t kind needsJoin rest) () c) (href : Yields (tableRef c) table c₁)
    (hon : Yields (onClause kind c₁) otherwise c₂) (h : Yields (joinList c₂) joins c₃) :
    Yields (joinList (t :: rest)) (⟨t.pos, kind, table, otherwise⟩ :: joins) c₃ := by
  unfold joinList
  dsimp only
  rw [ht]
  exact hw.bind fun _ => href.bind fun _ => hon.bind fun _ => h.bind fun _ => yields_ok _

theorem onClause_cross : Yields (onClause .cross c) none c := by
  unfold onClause
  rw [if_pos rfl]
  exact yields_ok _

theorem onClause_other (hk : kind ≠ .cross) (h : Yields (clause .on c) otherwise c₁) :
    Yields (onClause kind c) otherwise c₁ := by
  unfold onClause
  rw [if_neg hk]
  exact h

/-! ## Queries -/

theorem selectColumns_last (h : Yields (chain 0 c) e c₁) (hname : Yields (label c₁) name c₂)
    (hstop : c₂.accept? .comma = none) : Yields (selectColumns c) [⟨e, name⟩] c₂ := by
  unfold selectColumns
  refine h.bind fun _ => hname.bind fun _ => ?_
  dsimp only
  rw [hstop]
  exact yields_ok _

theorem selectColumns_more (h : Yields (chain 0 c) e c₁)
    (hname : Yields (label c₁) name (t :: c₂)) (ht : t.kind = .comma)
    (hcolumns : Yields (selectColumns c₂) columns c₃) :
    Yields (selectColumns c) (⟨e, name⟩ :: columns) c₃ := by
  unfold selectColumns
  refine h.bind fun _ => hname.bind fun _ => ?_
  dsimp only
  rw [accept?_cons c₂ ht]
  exact hcolumns.bind fun _ => yields_ok _

theorem selectList_star (ht : t.kind = .star) : Yields (selectList (t :: rest)) [] rest := by
  unfold selectList
  rw [accept?_cons rest ht]
  exact yields_ok _

theorem selectList_columns (hstar : c.accept? .star = none)
    (h : Yields (selectColumns c) columns c₁) : Yields (selectList c) columns c₁ := by
  unfold selectList
  rw [hstar]
  exact h

/-- A query without a from item. -/
theorem select_bare (ht : t.kind = .keyword .select)
    (hdistinct : rest.accept? (.keyword .distinct) = none)
    (hlist : Yields (selectList rest) columns c) (hne : columns ≠ [])
    (hfrom : c.accept? (.keyword .from) = none) (hend : refuseSetOperation c = .ok ()) :
    Yields (select (t :: rest))
      ⟨t.pos, false, columns, none, [], none, [], none, [], none, none⟩ c := by
  unfold select
  refine (take_yields rest _ ht).bind fun _ => ?_
  dsimp only
  rw [if_neg (by simp [at?_eq_false hdistinct])]
  refine hlist.bind fun _ => ?_
  dsimp only
  rw [hfrom]
  dsimp only
  rw [if_neg (by simpa using hne), hend]
  exact yields_ok _

/-- A query with a from item, clause by clause. -/
theorem select_from {filter having limit offset : Option Expr} {groupBy : List Expr}
    {orderBy : List OrderKey} {c₄ c₅ c₆ c₇ c₈ : Cursor} (ht : t.kind = .keyword .select)
    (hdistinct : rest.accept? (.keyword .distinct) = none)
    (hlist : Yields (selectList rest) columns (u :: c)) (hu : u.kind = .keyword .from)
    (hsource : Yields (tableRef c) source c₁) (hjoins : Yields (joinList c₁) joins c₂)
    (hfilter : Yields (clause .where c₂) filter c₃) (hgroup : Yields (groupClause c₃) groupBy c₄)
    (hhaving : Yields (clause .having c₄) having c₅) (horder : Yields (orderClause c₅) orderBy c₆)
    (hlimit : Yields (clause .limit c₆) limit c₇) (hoffset : Yields (clause .offset c₇) offset c₈)
    (hend : refuseSetOperation c₈ = .ok ()) :
    Yields (select (t :: rest)) ⟨t.pos, columns.isEmpty, columns, some source, joins, filter,
      groupBy, having, orderBy, limit, offset⟩ c₈ := by
  unfold select
  refine (take_yields rest _ ht).bind fun _ => ?_
  dsimp only
  rw [if_neg (by simp [at?_eq_false hdistinct])]
  refine hlist.bind fun _ => ?_
  dsimp only
  rw [accept?_cons c hu]
  refine hsource.bind fun _ => hjoins.bind fun _ => hfilter.bind fun _ => hgroup.bind fun _ =>
    hhaving.bind fun _ => horder.bind fun _ => hlimit.bind fun _ => hoffset.bind fun _ => ?_
  dsimp only
  rw [hend]
  exact yields_ok _

end Grammar

end TableQuery
