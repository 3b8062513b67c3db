import Mathlib
import TableQuery.Proofs.Query.Reread

/-! # Queries read again

What is written for a query is read as this query again, clause by clause. The clauses have an
order, so that behind each one stand tokens of later clauses only, and a clause that is left out is
not found in what follows. All queries that the grammar builds are of this kind. -/

namespace TableQuery

open Parsed Grammar

/-! ## What stands behind a clause -/

namespace Cursor

variable {n : Nat} {r : Cursor}

theorem lt_stage_clause {k : Keyword} (e? : Option Expr) (hk : n < (TokenKind.keyword k).stage)
    (hr : n < r.stage) : n < stage (Token.clause k (e?.map (·.written false)) ++ r) := by
  cases e? with
  | none => exact hr
  | some e => exact hk

theorem lt_stage_groupClause (keys : List Expr) (hn : n < 4) (hr : n < r.stage) :
    n < stage (Token.grouping (keys.map (·.written false)) ++ r) := by
  cases keys with
  | nil => exact hr
  | cons key keys => exact hn

theorem lt_stage_orderClause (keys : List OrderKey) (hn : n < 6) (hr : n < r.stage) :
    n < stage (OrderKey.clause keys ++ r) := by
  cases keys with
  | nil => exact hr
  | cons key keys => exact hn

theorem lt_stage_joins (joins : List Join) (hn : n < 2) (hr : n < r.stage) :
    n < stage (writtenJoins joins ++ r) := by
  rcases joins with _ | ⟨⟨pos, kind, table, condition⟩, joins⟩
  · exact hr
  · cases kind <;> exact hn

end Cursor

namespace Grammar

variable {c r rest : Cursor} {query : Select}

/-! ## Clauses without expressions in them -/

theorem label_written (name : Option String) (has : r.accept? (.keyword .as) = none)
    (hname : r.accept? .identifier = none) :
    Yields (label (Token.label name ++ r)) name r := by
  cases name with
  | none => exact label_absent has hname
  | some text => exact label_as rfl rfl

theorem grip_label (name : Option String) (hr : r.grip = 0) :
    Cursor.grip (Token.label name ++ r) = 0 := by
  cases name with
  | none => exact hr
  | some text => rfl

theorem direction_written (way : Direction) (r : Cursor) :
    ∃ h, direction (Token.ofDirection way :: r) = ⟨way, r, h⟩ := by
  cases way <;> exact ⟨Nat.lt_succ_of_lt (r.length_lt_succ), rfl⟩

theorem orderKeys_written {keys : List OrderKey} (hne : keys ≠ []) (hr : 0 < r.stage) :
    Yields (orderKeys (Token.withCommas (keys.map (·.written)) ++ r)) (keys.map (·.unplaced))
      r := by
  have hcolumn : ∀ (key : OrderKey) (r : Cursor),
      Yields (columnRef (key.written ++ r)) key.column.unplaced
        (Token.ofDirection key.direction :: r) := by
    intro key r
    rw [OrderKey.written, List.append_assoc]
    refine columnRef_written key.column (Cursor.accept?_other r ?_)
    cases key.direction <;> decide
  refine withCommas_yields hne (fun key _ r hr => ?_) (fun key _ r rest keys' hkeys => ?_) hr
  · obtain ⟨_, hway⟩ := direction_written key.direction r
    exact orderKeys_last (hcolumn key r) hway (Cursor.accept?_of_stage hr)
  · obtain ⟨_, hway⟩ := direction_written key.direction (Token.symbol .comma "," :: r)
    exact orderKeys_more (hcolumn key _) hway rfl hkeys

theorem orderClause_written (keys : List OrderKey) (hr : 6 < r.stage) :
    Yields (orderClause (OrderKey.clause keys ++ r)) (keys.map (·.unplaced)) r := by
  cases keys with
  | nil => exact orderClause_absent (Cursor.accept?_of_stage hr)
  | cons key keys =>
    exact orderClause_given rfl rfl (orderKeys_written (by simp) (Nat.zero_lt_of_lt hr))

theorem joinStart?_of_stage {kind : TokenKind} (h : 2 < kind.stage) : joinStart? kind = none := by
  unfold joinStart?
  split <;> first | rfl | exact absurd h (by decide)

theorem refuseSetOperation_of_stage (h : r.stage = 9) : refuseSetOperation r = .ok () := by
  cases r with
  | nil => cases h
  | cons t rest =>
    have hkind : setOperation? t.kind = none := by
      unfold setOperation?
      split <;> first | rfl | (next hk => rw [Cursor.stage_cons, hk] at h; cases h)
    unfold refuseSetOperation
    simp [Cursor.current?, hkind]

/-! ## Columns and keys -/

/-- A clause in front of tokens of later clauses. -/
theorem clause_behind {k : Keyword} {e? : Option Expr} (h : ∀ e, e? = some e → Rereads 0 e)
    (hr : (TokenKind.keyword k).stage < r.stage) :
    Yields (clause k (Token.clause k (e?.map (·.written false)) ++ r)) (e?.map (·.unplaced)) r :=
  clause_written h (Cursor.grip_of_stage (Nat.zero_lt_of_lt hr)) (Cursor.accept?_of_stage hr)

theorem groupClause_written {keys : List Expr} (h : ∀ key ∈ keys, Rereads 0 key)
    (hr : 4 < r.stage) :
    Yields (groupClause (Token.grouping (keys.map (·.written false)) ++ r))
      (keys.map (·.unplaced)) r := by
  cases keys with
  | nil => exact groupClause_absent (Cursor.accept?_of_stage hr)
  | cons key keys =>
    exact groupClause_given rfl rfl (expressions_written (by simp) h (Nat.zero_lt_of_lt hr))

theorem selectColumns_written {columns : List SelectColumn} (hne : columns ≠ [])
    (h : ∀ column ∈ columns, Rereads 0 column.expr) (hr : 0 < r.stage) :
    Yields (selectColumns (Token.withCommas (columns.map (·.written)) ++ r))
      (columns.map (·.unplaced)) r := by
  refine withCommas_yields hne (fun column hc r hr => ?_)
    (fun column hc r rest columns' hrest => ?_) hr
  · rw [SelectColumn.written, List.append_assoc]
    exact selectColumns_last ((h column hc).whole (grip_label _ (Cursor.grip_of_stage hr)))
      (label_written _ (Cursor.accept?_of_stage hr) (Cursor.accept?_of_stage hr))
      (Cursor.accept?_of_stage hr)
  · rw [SelectColumn.written, List.append_assoc]
    have hlabel := label_written (r := .symbol .comma "," :: r) column.label
      (Cursor.accept?_other r (by decide)) (Cursor.accept?_other r (by decide))
    exact selectColumns_more ((h column hc).whole (grip_label _ rfl)) hlabel rfl hrest

theorem starts_columns {columns : List SelectColumn} (hne : columns ≠ [])
    (h : ∀ column ∈ columns, Rereads 0 column.expr) :
    Starts (Token.withCommas (columns.map (·.written))) :=
  starts_withCommas hne fun column hc => ((h column hc).starts false).append _

theorem selectList_written {star : Bool} {columns : List SelectColumn}
    (hstar : star = columns.isEmpty) (h : ∀ column ∈ columns, Rereads 0 column.expr)
    (hr : 0 < r.stage) :
    Yields (selectList (Token.listing star (columns.map (·.written)) ++ r))
      (columns.map (·.unplaced)) r := by
  cases columns with
  | nil =>
    cases hstar
    exact selectList_star rfl
  | cons column columns =>
    cases hstar
    have hstarts := (starts_columns (by simp) h).append r
    exact selectList_columns (hstarts.accept? (by decide)) (selectColumns_written (by simp) h hr)

theorem listing_distinct {star : Bool} {columns : List SelectColumn}
    (hstar : star = columns.isEmpty) (h : ∀ column ∈ columns, Rereads 0 column.expr) :
    Cursor.accept? (Token.listing star (columns.map (·.written)) ++ r) (.keyword .distinct) =
      none := by
  cases columns with
  | nil =>
    cases hstar
    exact Cursor.accept?_other r (by decide)
  | cons column columns =>
    cases hstar
    exact ((starts_columns (by simp) h).append r).accept? (by decide)

/-! ## Tables -/

theorem tableRef_written {ref : TableRef}
    (h : ∀ inner, ref.source = .subquery inner → QueryRereads inner) (hr : 0 < r.stage) :
    Yields (tableRef (ref.written ++ r)) ref.unplaced r := by
  have has : r.accept? (.keyword .as) = none := Cursor.accept?_of_stage hr
  have hname : r.accept? .identifier = none := Cursor.accept?_of_stage hr
  obtain ⟨pos, name | query, name'⟩ := ref
  · exact tableRef_name rfl (label_written name' has hname)
  · obtain ⟨ts, hts⟩ := written_cons query
    have hq := h query rfl (r := .symbol .rightParen ")" :: (Token.label name' ++ r)) rfl
    rw [hts] at hq
    rw [TableRef.written, List.append_assoc, Token.inParens_append, hts]
    exact tableRef_subquery rfl rfl hq rfl (label_written name' has hname)

/-- A join without a condition where it is a cross join. -/
theorem onClause_written {kind : JoinKind} {condition : Option Expr}
    (hcross : kind = .cross → condition = none) (h : ∀ e, condition = some e → Rereads 0 e)
    (hr : 1 < r.stage) :
    Yields (onClause kind (Token.clause .on (condition.map (·.written false)) ++ r))
      (condition.map (·.unplaced)) r := by
  by_cases hk : kind = .cross
  · cases hk
    cases hcross rfl
    exact onClause_cross
  · exact onClause_other hk (clause_behind h hr)

theorem joinList_written {joins : List Join}
    (hquery : ∀ join ∈ joins, ∀ inner, join.table.source = .subquery inner → QueryRereads inner)
    (hcondition : ∀ join ∈ joins, ∀ e, join.condition = some e → Rereads 0 e)
    (hcross : ∀ join ∈ joins, join.kind = .cross → join.condition = none) (hr : 2 < r.stage) :
    Yields (joinList (writtenJoins joins ++ r)) (unplacedJoins joins) r := by
  induction joins with
  | nil =>
    refine joinList_stop fun t ht => joinStart?_of_stage ?_
    cases r with
    | nil => cases ht
    | cons first rest =>
      cases ht
      exact hr
  | cons join joins ih =>
    have hjoins := ih (fun j hj => hquery j (List.mem_cons_of_mem _ hj))
      (fun j hj => hcondition j (List.mem_cons_of_mem _ hj))
      (fun j hj => hcross j (List.mem_cons_of_mem _ hj))
    have hbehind : 1 < Cursor.stage (writtenJoins joins ++ r) :=
      Cursor.lt_stage_joins joins (by decide) (Nat.lt_of_succ_lt hr)
    obtain ⟨pos, kind, table, condition⟩ := join
    have hon := onClause_written (hcross _ List.mem_cons_self) (hcondition _ List.mem_cons_self)
      hbehind
    have htable := tableRef_written (hquery _ List.mem_cons_self)
      (Cursor.lt_stage_clause (k := .on) condition (by decide) (Nat.zero_lt_of_lt hbehind))
    have hstart : joinStart? (Token.ofJoin kind).kind = some (kind, true) := by cases kind <;> rfl
    have hpos : (Token.ofJoin kind).pos = .start := by cases kind <;> rfl
    have h := joinList_join hstart (joinWords_join (t := .word .join) _ kind rfl) htable hon hjoins
    rw [hpos] at h
    have hwritten : writtenJoins (⟨pos, kind, table, condition⟩ :: joins) ++ r =
        .ofJoin kind :: .word .join :: (table.written ++
          (Token.clause .on (condition.map (·.written false)) ++ (writtenJoins joins ++ r))) := by
      simp [writtenJoins]
    rw [hwritten, unplacedJoins, unplacedOption_eq]
    exact h

/-! ## Queries -/

/-- A query without a from item has columns only. -/
theorem queryRereads_bare {columns : List SelectColumn} (pos : Position) (hne : columns ≠ [])
    (h : ∀ column ∈ columns, Rereads 0 column.expr) :
    QueryRereads ⟨pos, false, columns, none, [], none, [], none, [], none, none⟩ := by
  intro r hr
  have hstar : false = columns.isEmpty := by
    cases columns with
    | nil => exact absurd rfl hne
    | cons column columns => rfl
  have hstage : 1 < r.stage := by rw [hr]; decide
  have hlist := selectList_written hstar h (Nat.zero_lt_of_lt hstage)
  have hwritten : Select.written ⟨pos, false, columns, none, [], none, [], none, [], none, none⟩ ++
      r = .word .select :: (Token.listing false (columns.map (·.written)) ++ r) := by
    simp [Select.written, writtenSource, writtenJoins, Token.clause, Token.grouping,
      OrderKey.clause]
  rw [hwritten, Select.unplaced_eq]
  exact select_bare rfl (listing_distinct hstar h) hlist (by simpa using hne)
    (Cursor.accept?_of_stage hstage) (refuseSetOperation_of_stage hr)

/-- A query with a from item may have all clauses. -/
theorem queryRereads_from {ref : TableRef}
    (hparts : query.PartsHold (Rereads 0) QueryRereads)
    (hgroup : ∀ key ∈ query.groupBy, Rereads 0 key) (hformed : query.Formed)
    (hs : query.source = some ref) : QueryRereads query := by
  intro r hr
  have hstar : query.star = query.columns.isEmpty := hformed.star (by simp [hs])
  have hempty : (query.columns.map (·.unplaced)).isEmpty = query.columns.isEmpty :=
    List.isEmpty_map
  -- From the last clause to the first, only tokens of later clauses stand behind each one.
  have h₈ : 8 < r.stage := by rw [hr]; decide
  have h₇ := Cursor.lt_stage_clause (k := .offset) query.offset (by decide) (Nat.lt_of_succ_lt h₈)
  have h₆ := Cursor.lt_stage_clause (k := .limit) query.limit (by decide) (Nat.lt_of_succ_lt h₇)
  have h₅ := Cursor.lt_stage_orderClause query.orderBy (by decide) (Nat.lt_of_succ_lt h₆)
  have h₄ := Cursor.lt_stage_clause (k := .having) query.having (by decide) (Nat.lt_of_succ_lt h₅)
  have h₃ := Cursor.lt_stage_groupClause query.groupBy (by decide) (Nat.lt_of_succ_lt h₄)
  have h₂ := Cursor.lt_stage_clause (k := .where) query.filter (by decide) (Nat.lt_of_succ_lt h₃)
  have h₁ := Cursor.lt_stage_joins query.joins (by decide) (Nat.lt_of_succ_lt h₂)
  rw [Select.written_append hs, Select.unplaced_eq, hs, Option.map_some, hstar, ← hempty]
  exact select_from rfl (listing_distinct hempty hparts.columns)
    (selectList_written hempty hparts.columns (Nat.succ_pos 0)) rfl
    (tableRef_written (hparts.source ref hs) (Nat.zero_lt_of_lt h₁))
    (joinList_written hparts.joins hparts.conditions hformed.cross h₂)
    (clause_behind hparts.filter h₃) (groupClause_written hgroup h₄)
    (clause_behind hparts.having h₅) (orderClause_written query.orderBy h₆)
    (clause_behind hparts.limit h₇) (clause_behind hparts.offset h₈)
    (refuseSetOperation_of_stage hr)

theorem builds_rereads : Builds (fun _ => True) Rereads QueryRereads where
  loosen := Rereads.loosen
  operator pos hn hsum hl hr := rereads_node pos hn hsum hl hr
  not pos h := rereads_not pos h
  negate pos h := rereads_negate pos h
  member pos hs hne h := rereads_member pos hs hne h
  between pos hs hl hh := rereads_between pos hs hl hh
  like pos ignoreCase hs hp := rereads_like pos hs ignoreCase hp
  isNull pos hc h := rereads_isNull pos hc h
  refused pos ht h := rereads_refused pos ht h
  call pos hstar hc h := rereads_call pos hstar hc h
  literal pos v := rereads_literal pos v
  column {ref} _ := rereads_column ref
  group pos h := rereads_group pos h
  existence pos h := rereads_existence pos h
  subquery h := rereads_subquery h
  case pos hne hlength hw ht ho := rereads_case pos hne hlength hw ht ho
  select {query} hparts hgroup hformed _ := by
    cases hs : query.source with
    | none =>
      obtain ⟨hne, hbare⟩ := hformed.bare hs
      rw [hbare]
      exact queryRereads_bare query.pos hne hparts.columns
    | some ref => exact queryRereads_from hparts hgroup hformed hs

/-! ## Statements -/

/-- Rules have read all tokens of what is written, so neither comments nor ends are among them. -/
theorem QueryRereads.isRead_written (h : QueryRereads query) :
    ∀ t ∈ query.written, t.kind.isRead = true := by
  let c : Cursor := query.written ++ [.symbol .endOfText ""]
  obtain ⟨hlt, hc⟩ := h (r := [.symbol .endOfText ""]) rfl
  have hselect := (soundBelow builds_rereads (16 * c.length + 1)).select c (by omega)
  obtain ⟨⟨read, hread, hkinds⟩, -⟩ := hselect.ok (fun _ _ _ => trivial) _ hc
  rw [(List.append_inj' hread rfl).1]
  exact hkinds

/-- An end token is put behind tokens that have none. -/
theorem ofTokens_of_isRead {tokens : List Token} (h : ∀ t ∈ tokens, t.kind.isRead = true) :
    ∃ last : Token, last.kind = .endOfText ∧ Cursor.ofTokens tokens = tokens ++ [last] := by
  have hkept : tokens.filter (·.kind != .comment) = tokens := by
    refine List.filter_eq_self.mpr fun t ht => bne_iff_ne.mpr fun hk => ?_
    have hread := h t ht
    rw [hk] at hread
    cases hread
  unfold Cursor.ofTokens
  dsimp only
  rw [hkept]
  cases hl : tokens.getLast? with
  | none =>
    rw [List.getLast?_eq_none_iff.mp hl]
    exact ⟨_, rfl, rfl⟩
  | some last =>
    have hlast := Token.isEnd_of_isRead (h last (List.mem_of_getLast? hl))
    simp only [hlast, Bool.false_eq_true, if_false]
    exact ⟨_, rfl, rfl⟩

theorem single_yields {last : Token} (h : Yields (select c) query [last])
    (hl : last.kind = .endOfText) : Yields (single c) query [last] := by
  have hend : Cursor.isAtEnd [last] = true := by
    simp [Cursor.isAtEnd, Cursor.current?, Token.isEnd, hl]
  have hstatement : Yields (statement c) query [last] := by
    unfold statement
    refine h.bind fun _ => ?_
    dsimp only
    rw [if_pos hend]
    exact yields_ok _
  unfold single
  refine hstatement.bind fun _ => ?_
  dsimp only
  rw [if_pos hend]
  exact yields_ok _

end Grammar

/-- Whatever is read as a query, what is written for the query is read as the query again, but for
the positions of its tokens. -/
theorem Select.written_read_again {c : Cursor} {step : Step Select c.length}
    (h : single c = .ok step) :
    ∃ again, single (Cursor.ofTokens step.value.written) = .ok again ∧
      again.value = step.value.unplaced := by
  have hquery : QueryRereads step.value :=
    ((single_sound builds_rereads c).ok (fun _ _ _ => trivial) step h).2
  obtain ⟨last, hlast, htokens⟩ := ofTokens_of_isRead hquery.isRead_written
  have hselect : Yields (select (step.value.written ++ [last])) step.value.unplaced [last] :=
    hquery (by rw [Cursor.stage_cons, hlast]; rfl)
  obtain ⟨_, hagain⟩ := single_yields hselect hlast
  rw [htokens]
  exact ⟨_, hagain, rfl⟩

/-- A comma and a `not` in front are written in other words. -/
theorem comma_and_opposite_read_again :
    ∃ (c : Cursor) (step : Step Select c.length),
      Cursor.ofText? "select x n from t, (select 1) where not x in (2, -y) order by t.x" = .ok c ∧
      single c = .ok step ∧
      step.value.written.map (·.lexeme) = ["select", "x", "as", "n", "from", "t", "cross", "join",
        "(", "select", "1", ")", "where", "x", "not", "in", "(", "2", ",", "-", "y", ")",
        "order", "by", "t", ".", "x", "asc"] ∧
      ∃ again, single (Cursor.ofTokens step.value.written) = .ok again ∧
        again.value = step.value.unplaced := by
  have hwritten : (Select.ofText?
      "select x n from t, (select 1) where not x in (2, -y) order by t.x").map
        (fun query => query.written.map (·.lexeme)) = .ok
      ["select", "x", "as", "n", "from", "t", "cross", "join", "(", "select", "1", ")", "where",
        "x", "not", "in", "(", "2", ",", "-", "y", ")", "order", "by", "t", ".", "x", "asc"] := by
    cbv
  cases hq : Select.ofText? "select x n from t, (select 1) where not x in (2, -y) order by t.x" with
  | error e =>
    rw [hq] at hwritten
    cases hwritten
  | ok query =>
    rw [hq] at hwritten
    obtain ⟨c, step, hc, hs, rfl⟩ := read_ok hq
    exact ⟨c, step, hc, hs, Except.ok.inj hwritten, Select.written_read_again hs⟩

end TableQuery
