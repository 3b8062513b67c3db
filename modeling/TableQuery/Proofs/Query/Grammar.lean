import TableQuery.Proofs.Query.Cursor
import TableQuery.Proofs.Query.Parts

/-! # What the grammar builds

All rules of the grammar at once: what they read, what they blame, and which trees they build. The
trees are described by any properties of expressions, one for each level of the grammar, and of
queries that are closed under the ways in which nodes are built. How nodes are built includes which
names stand in them, and that nothing follows a sum that would have been part of it. -/

namespace TableQuery

/-! ## Shapes of trees -/

/-- A test of a subject, without a `not` around it. -/
def Expr.isTest : Expr → Bool
  | .member .. | .between .. | .like .. | .isNull .. => true
  | _ => false

/-- The last part of the expression is a bound of `between` or a pattern of `like`, which goes on
for as long as a sum does. -/
def Expr.endsInSum : Expr → Bool
  | .binary _ _ _ right | .logical _ _ _ right => right.endsInSum
  | .not _ operand | .negate _ operand => operand.endsInSum
  | .between .. | .like .. => true
  | _ => false

/-- What a query without a from item leaves out, and other clauses that go together. -/
structure Select.Formed (query : Select) : Prop where
  star : query.source ≠ none → query.star = query.columns.isEmpty
  bare : query.source = none → query.columns ≠ [] ∧
    query = ⟨query.pos, false, query.columns, none, [], none, [], none, [], none, none⟩
  cross : ∀ join ∈ query.joins, join.kind = .cross → join.condition = none

/-! ## Names -/

section

variable (N : String → Prop)

/-- The names in a reference are of the sort `N`. -/
structure ColumnRef.Named (ref : ColumnRef) : Prop where
  table : ∀ qualifier, ref.table = some qualifier → N qualifier
  name : N ref.name

structure TableRef.Named (ref : TableRef) : Prop where
  source : ∀ name, ref.source = .table name → N name
  label : ∀ label, ref.label = some label → N label

/-- The names in a query that stand in no expression are of the sort `N`. -/
structure Select.Named (query : Select) : Prop where
  source : ∀ ref, query.source = some ref → ref.Named N
  joins : ∀ join ∈ query.joins, join.table.Named N
  orderBy : ∀ key ∈ query.orderBy, key.column.Named N

end

namespace Grammar

open Parsed

/-! ## Levels -/

/-- The level of `not` and `-` in front. -/
def signLevel : Nat := levels

def testLevel : Nat := 7

def callLevel : Nat := 8

def primaryLevel : Nat := 9

/-- Properties of what the rules build of tokens with names of the sort `N`: expressions of a level,
and queries. -/
structure Builds (N : String → Prop) (P : Nat → Expr → Prop) (Q : Select → Prop) : Prop where
  loosen : ∀ {level : Nat} {expr : Expr}, P (level + 1) expr → P level expr
  /-- What ends in a sum is followed by looser operators only. -/
  operator : ∀ {level : Nat} {kind : TokenKind} {node : Position → Expr → Expr → Expr}
    {left right : Expr} (pos : Position), operatorNode? level kind = some node →
    (left.endsInSum = true → level < sumLevel) → P level left → P (level + 1) right →
    P level (node pos left right)
  not : ∀ {operand : Expr} (pos : Position), P signLevel operand → P signLevel (.not pos operand)
  negate : ∀ {operand : Expr} (pos : Position),
    P signLevel operand → P signLevel (.negate pos operand)
  member : ∀ {subject : Expr} {items : List Expr} (pos : Position), P callLevel subject →
    items ≠ [] → (∀ item ∈ items, P 0 item) → P testLevel (.member pos subject items)
  between : ∀ {subject low high : Expr} (pos : Position), P callLevel subject → P sumLevel low →
    P sumLevel high → P testLevel (.between pos subject low high)
  like : ∀ {subject pattern : Expr} (pos : Position) (ignoreCase : Bool), P callLevel subject →
    P sumLevel pattern → P testLevel (.like pos subject pattern ignoreCase)
  isNull : ∀ {subject : Expr} (pos : Position), subject.endsInSum = false → P testLevel subject →
    P testLevel (.isNull pos subject)
  refused : ∀ {test : Expr} (pos : Position), test.isTest = true → P testLevel test →
    P testLevel (.not pos test)
  call : ∀ {callee : Expr} {args : List Expr} {star : Bool} (pos : Position),
    (star = true → args = []) → P callLevel callee → (∀ arg ∈ args, P 0 arg) →
    P callLevel (.call pos callee args star)
  literal : ∀ (pos : Position) (v : Value), P primaryLevel (.literal pos v)
  column : ∀ {ref : ColumnRef}, ref.Named N → P primaryLevel (.column ref)
  group : ∀ {inner : Expr} (pos : Position), P 0 inner → P primaryLevel (.group pos inner)
  existence : ∀ {query : Select} (pos : Position), Q query → P primaryLevel (.existence pos query)
  subquery : ∀ {query : Select}, Q query → P primaryLevel (.subquery query)
  case : ∀ {whens thens : List Expr} {otherwise : Option Expr} (pos : Position), whens ≠ [] →
    whens.length = thens.length → (∀ expr ∈ whens, P 0 expr) → (∀ expr ∈ thens, P 0 expr) →
    (∀ expr, otherwise = some expr → P 0 expr) → P primaryLevel (.case pos whens thens otherwise)
  select : ∀ {query : Select}, query.PartsHold (P 0) Q → (∀ key ∈ query.groupBy, P 0 key) →
    query.Formed → query.Named N → Q query

variable {N : String → Prop} {P : Nat → Expr → Prop} {Q : Select → Prop}

theorem Builds.any (B : Builds N P Q) {expr : Expr} :
    ∀ {level : Nat}, P level expr → P 0 expr
  | 0, h => h
  | _ + 1, h => B.any (B.loosen h)

/-- Operators build nodes of two kinds. -/
theorem operatorNode?_cases {level : Nat} {kind : TokenKind}
    {node : Position → Expr → Expr → Expr} (h : operatorNode? level kind = some node) :
    (∃ op, node = (Expr.logical · op)) ∨ ∃ op, node = (Expr.binary · op) := by
  unfold operatorNode? at h
  split at h <;> cases h
  case h_1 | h_2 => exact .inl ⟨_, rfl⟩
  all_goals exact .inr ⟨_, rfl⟩

theorem operatorNode?_eq_none {level : Nat} (h : levels ≤ level) (kind : TokenKind) :
    operatorNode? level kind = none := by
  unfold operatorNode?
  split <;> first | rfl | exact absurd h (by decide)

theorem endsInSum_node {level : Nat} {kind : TokenKind} {node : Position → Expr → Expr → Expr}
    (h : operatorNode? level kind = some node) (pos : Position) (left right : Expr) :
    (node pos left right).endsInSum = right.endsInSum := by
  rcases operatorNode?_cases h with ⟨op, rfl⟩ | ⟨op, rfl⟩ <;> rfl

/-! ## Where expressions end -/

/-- The token at hand is no operator of the level or a tighter one, nor does a null test begin with
it. -/
def StopsAt (level : Nat) (c : Cursor) : Prop :=
  ∀ t, c.head? = some t → t.kind ≠ .keyword .is ∧ ∀ l, level ≤ l → operatorNode? l t.kind = none

/-- If the expression ends in a sum, the sum does not go on here. -/
def EndsAt (expr : Expr) (c : Cursor) : Prop := expr.endsInSum = true → StopsAt sumLevel c

/-- A rule has read an expression up to a cursor, where no operator of the level follows. -/
structure ReadAt (p : Expr → Prop) (level : Nat) (expr : Expr) (rest : Cursor) : Prop where
  built : p expr
  ends : EndsAt expr rest
  stops : StopsAt level rest

theorem endsAt_of_closed {expr : Expr} (h : expr.endsInSum = false) (c : Cursor) :
    EndsAt expr c := fun hopen => absurd (h.symm.trans hopen) (by decide)

theorem ReadAt.mono {p q : Expr → Prop} {level : Nat} {expr : Expr} {rest : Cursor}
    (h : ReadAt p level expr rest) (hpq : p expr → q expr) : ReadAt q level expr rest :=
  ⟨hpq h.built, h.ends, h.stops⟩

/-- Where no null test follows, no operator tighter than all levels does. -/
theorem stopsAt_levels {c : Cursor} (h : c.accept? (.keyword .is) = none) : StopsAt levels c := by
  intro t ht
  refine ⟨fun hk => ?_, fun l hl => operatorNode?_eq_none hl t.kind⟩
  cases c with
  | nil => cases ht
  | cons first rest =>
    cases ht
    simp [Cursor.accept?, hk] at h

/-- One level looser, if the operator at hand is not of that level. -/
theorem StopsAt.loosen {level : Nat} {c : Cursor} (h : StopsAt (level + 1) c)
    (hn : ∀ t, c.head? = some t → operatorNode? level t.kind = none) : StopsAt level c := by
  refine fun t ht => ⟨(h t ht).1, fun l hl => ?_⟩
  rcases Nat.eq_or_lt_of_le hl with rfl | hlt
  · exact hn t ht
  · exact (h t ht).2 l hlt

/-! ## Rules without expressions in them -/

theorem columnRef_sound (c : Cursor) : Sound N (fun ref _ => ref.Named N) c (columnRef c) := by
  unfold columnRef
  refine sound_takeName fun first c₁ h₁ hfirst => ?_
  dsimp only
  split
  · exact sound_ok (.refl c₁) ⟨by simp, hfirst⟩
  · next ha =>
    refine sound_accept ha (by decide) (sound_takeName fun name _ _ hname => ?_)
    refine sound_ok (.refl _) ⟨fun qualifier hq => ?_, hname⟩
    cases hq
    exact hfirst

theorem label_sound (c : Cursor) :
    Sound N (fun name _ => ∀ l, name = some l → N l) c (label c) := by
  have hlabel : ∀ (t : Token) (rest : Cursor) (hr : rest.length < c.length + 1), N t.lexeme →
      Sound N (fun name _ => ∀ l, name = some l → N l) rest
        (.ok ⟨some t.lexeme, rest, hr⟩ : Parsed (Option String) (c.length + 1)) := by
    intro t rest hr hname
    refine sound_ok (.refl rest) fun l hl => ?_
    cases hl
    exact hname
  unfold label
  split
  · next t c₁ h₁ ha =>
    refine sound_accept ha (by decide) (sound_takeName fun name c₂ h₂ hname => ?_)
    exact hlabel name c₂ (by omega) hname
  · split
    · next name c₁ h₁ ha =>
      refine sound_of_names fun hc => sound_accept ha (by decide) (hlabel name c₁ (by omega) ?_)
      obtain ⟨ht, rfl⟩ := Cursor.accept?_eq_some ha
      exact hc name List.mem_cons_self ht
    · exact sound_ok (.refl c) (by simp)

theorem direction_readTo (c : Cursor) : c.ReadTo (direction c).rest := by
  unfold direction
  split
  · next ha => exact Cursor.accept?_readTo ha (by decide)
  · split
    · next ha => exact Cursor.accept?_readTo ha (by decide)
    · exact .refl c

theorem orderKeys_sound (c : Cursor) :
    Sound N (fun keys _ => ∀ key ∈ keys, key.column.Named N) c (orderKeys c) := by
  unfold orderKeys
  refine (columnRef_sound c).bind fun column c₁ h₁ hcolumn => ?_
  have hr := direction_readTo c₁
  dsimp only
  generalize direction c₁ = step at hr ⊢
  obtain ⟨way, c₂, h₂⟩ := step
  refine Sound.behind hr ?_
  dsimp only
  split
  · exact sound_ok (.refl c₂) (List.forall_mem_singleton.mpr hcolumn)
  · next t c₃ h₃ ha =>
    refine sound_accept ha (by decide) ?_
    refine (orderKeys_sound c₃).bind fun _ _ _ hkeys => sound_ok (.refl _) ?_
    exact List.forall_mem_cons.mpr ⟨hcolumn, hkeys⟩
termination_by c.length

theorem orderClause_sound (c : Cursor) :
    Sound N (fun keys _ => ∀ key ∈ keys, key.column.Named N) c (orderClause c) := by
  unfold orderClause
  split
  · exact sound_ok (.refl c) (by simp)
  · next ha =>
    refine sound_accept ha (by decide) (sound_take (by decide) fun _ c₂ _ => ?_)
    exact (orderKeys_sound c₂).bind fun _ _ _ hkeys => sound_ok (.refl _) hkeys

theorem joinWords_sound (start : Token) (kind : JoinKind) (needsJoin : Bool) (c : Cursor) :
    Sound N (fun _ _ => True) c (joinWords start kind needsJoin c) := by
  unfold joinWords
  split
  · dsimp only
    split
    · next ha =>
      split at ha
      · refine sound_accept ha (by decide) (sound_take (by decide) fun _ _ _ => ?_)
        exact sound_ok (.refl _) trivial
      · cases ha
    · exact sound_take (by decide) fun _ _ _ => sound_ok (.refl _) trivial
  · exact sound_ok (.refl c) trivial

/-- A set operation is refused where it stands. -/
theorem refuse_sound {α : Type} {n : Nat} {P : α → Cursor → Prop} {c : Cursor}
    {next : Unit → Parsed α n} (h : Sound N P c (next ())) :
    Sound N P c (refuseSetOperation c >>= next) := by
  unfold refuseSetOperation
  cases c with
  | nil => exact sound_error (.refl []) Cursor.blames_nil
  | cons t rest =>
    simp only [Cursor.current?, List.head?_cons]
    split
    · exact sound_blame fun _ => rfl
    · exact h

/-- Operators and the words that begin a join are read. -/
theorem isRead_of_operatorNode? {level : Nat} {kind : TokenKind}
    {node : Position → Expr → Expr → Expr} (h : operatorNode? level kind = some node) :
    kind.isRead = true := by
  unfold operatorNode? at h
  split at h <;> first | rfl | cases h

theorem isRead_of_joinStart? {kind : TokenKind} {start : JoinKind × Bool}
    (h : joinStart? kind = some start) : kind.isRead = true := by
  unfold joinStart? at h
  split at h <;> first | rfl | cases h

/-! ## Expressions and queries

A rule calls other rules on fewer tokens, or on as many but with a lower rank. So it is sound if all
rules are sound below its own measure, and all rules are sound by induction on the measure. -/

/-- All rules are sound where their measure is below `n`. -/
structure SoundBelow (N : String → Prop) (P : Nat → Expr → Prop) (Q : Select → Prop) (n : Nat) :
    Prop where
  chain : ∀ {level : Nat}, level ≤ levels → ∀ c : Cursor,
    16 * c.length + (5 + (levels - level)) < n → Sound N (ReadAt (P level) level) c (chain level c)
  chainRest : ∀ {level : Nat}, level < levels → ∀ {left : Expr} (c : Cursor),
    ReadAt (P level) (level + 1) left c → 16 * c.length < n →
      Sound N (ReadAt (P level) level) c (chainRest level left c)
  signed : ∀ c : Cursor, 16 * c.length + 4 < n →
    Sound N (ReadAt (P signLevel) levels) c (signed c)
  tested : ∀ c : Cursor, 16 * c.length + 3 < n →
    Sound N (ReadAt (P testLevel) levels) c (tested c)
  test : ∀ {subject : Expr}, P callLevel subject → ∀ c : Cursor, 16 * c.length < n →
    ∀ outcome, test? subject c = some outcome →
      Sound N (fun e rest => e.isTest = true ∧ P testLevel e ∧ EndsAt e rest) c outcome
  members : ∀ c : Cursor, 16 * c.length < n →
    Sound N (fun es _ => es ≠ [] ∧ ∀ e ∈ es, P 0 e) c (members c)
  called : ∀ c : Cursor, 16 * c.length + 2 < n →
    Sound N (fun e _ => P callLevel e ∧ e.endsInSum = false) c (called c)
  callRest : ∀ {callee : Expr}, P callLevel callee → callee.endsInSum = false → ∀ c : Cursor,
    16 * c.length < n →
      Sound N (fun e _ => P callLevel e ∧ e.endsInSum = false) c (callRest callee c)
  arguments : ∀ c : Cursor, 16 * c.length + 13 < n →
    Sound N (fun args _ => (args.2 = true → args.1 = []) ∧ ∀ e ∈ args.1, P 0 e) c (arguments c)
  primary : ∀ c : Cursor, 16 * c.length + 1 < n →
    Sound N (fun e _ => P primaryLevel e ∧ e.endsInSum = false) c (primary c)
  branches : ∀ c : Cursor, 16 * c.length < n → Sound N (fun b _ => b.1.length = b.2.length ∧
    (∀ e ∈ b.1, P 0 e) ∧ ∀ e ∈ b.2, P 0 e) c (branches c)
  expressions : ∀ c : Cursor, 16 * c.length + 12 < n →
    Sound N (fun es _ => es ≠ [] ∧ ∀ e ∈ es, P 0 e) c (expressions c)
  clause : ∀ (k : Keyword) (c : Cursor), 16 * c.length < n →
    Sound N (fun e? _ => ∀ e, e? = some e → P 0 e) c (clause k c)
  select : ∀ c : Cursor, 16 * c.length < n → Sound N (fun query _ => Q query) c (select c)
  selectList : ∀ c : Cursor, 16 * c.length + 13 < n →
    Sound N (fun columns _ => ∀ column ∈ columns, P 0 column.expr) c (selectList c)
  selectColumns : ∀ c : Cursor, 16 * c.length + 12 < n →
    Sound N (fun columns _ => ∀ column ∈ columns, P 0 column.expr) c (selectColumns c)
  groupClause : ∀ c : Cursor, 16 * c.length < n →
    Sound N (fun keys _ => ∀ key ∈ keys, P 0 key) c (groupClause c)
  tableRef : ∀ c : Cursor, 16 * c.length < n → Sound N (fun ref _ =>
    (∀ inner, ref.source = .subquery inner → Q inner) ∧ ref.Named N) c (tableRef c)
  joinList : ∀ c : Cursor, 16 * c.length < n → Sound N (fun joins _ => ∀ join ∈ joins,
    ((∀ inner, join.table.source = .subquery inner → Q inner) ∧ join.table.Named N) ∧
      (∀ e, join.condition = some e → P 0 e) ∧ (join.kind = .cross → join.condition = none)) c
        (joinList c)
  onClause : ∀ (kind : JoinKind) (c : Cursor), 16 * c.length + 1 < n → Sound N (fun e? _ =>
    (∀ e, e? = some e → P 0 e) ∧ (kind = .cross → e? = none)) c (onClause kind c)

/-- The whole of an expression, from the loosest level on. -/
theorem SoundBelow.whole {n : Nat} (h : SoundBelow N P Q n) {c : Cursor}
    (hn : 16 * c.length + 11 < n) : Sound N (fun e _ => P 0 e) c (Grammar.chain 0 c) :=
  (h.chain (Nat.zero_le _) c hn).mono fun _ _ he => he.built

/-- The bounds of `between` and the patterns of `like`. -/
theorem SoundBelow.sum {n : Nat} (h : SoundBelow N P Q n) {c : Cursor}
    (hn : 16 * c.length + 7 < n) :
    Sound N (ReadAt (P sumLevel) sumLevel) c (Grammar.chain sumLevel c) :=
  h.chain (by decide) c hn

theorem nullTests_sound (B : Builds N P Q) {subject : Expr} {c : Cursor} (hs : P testLevel subject)
    (he : EndsAt subject c) : Sound N (ReadAt (P testLevel) levels) c (nullTests subject c) := by
  unfold nullTests
  split
  · next ha => exact sound_ok (.refl c) ⟨hs, he, stopsAt_levels ha⟩
  · next t c₁ h₁ ha =>
    -- a sum in front would have taken the test for its own
    have hclosed : subject.endsInSum = false := by
      obtain ⟨ht, rfl⟩ := Cursor.accept?_eq_some ha
      exact Bool.eq_false_iff.mpr fun hopen => (he hopen t rfl).1 ht
    refine sound_accept ha (by decide) ?_
    have htest := B.isNull t.pos hclosed hs
    split
    · refine sound_take (by decide) fun _ c₂ h₂ => ?_
      refine (nullTests_sound B htest (endsAt_of_closed rfl c₂)).bind fun _ _ _ he => ?_
      exact sound_ok (.refl _) he
    · next n c₂ h₂ hn =>
      refine sound_accept hn (by decide) (sound_take (by decide) fun _ c₃ h₃ => ?_)
      have hnot := B.refused n.pos rfl htest
      refine (nullTests_sound B hnot (endsAt_of_closed rfl c₃)).bind fun _ _ _ he => ?_
      exact sound_ok (.refl _) he
termination_by c.length

section

variable (B : Builds N P Q)
include B

theorem chain_sound {level : Nat} (hl : level ≤ levels) {c : Cursor}
    (h : SoundBelow N P Q (16 * c.length + (5 + (levels - level)))) :
    Sound N (ReadAt (P level) level) c (chain level c) := by
  unfold chain
  split
  · next hlt =>
    have hnext : Sound N (ReadAt (P (level + 1)) (level + 1)) c (Grammar.chain (level + 1) c) :=
      h.chain hlt c (by simp only [levels] at *; omega)
    refine hnext.bind fun left c₁ h₁ hleft => ?_
    have hrest := h.chainRest hlt c₁ (hleft.mono B.loosen) (by omega)
    exact hrest.bind fun _ _ _ he => sound_ok (.refl _) he
  · next hge =>
    obtain rfl : level = levels := by omega
    exact h.signed c (by omega)

theorem chainRest_sound {level : Nat} (hl : level < levels) {left : Expr} {c : Cursor}
    (hleft : ReadAt (P level) (level + 1) left c) (h : SoundBelow N P Q (16 * c.length)) :
    Sound N (ReadAt (P level) level) c (chainRest level left c) := by
  unfold chainRest
  cases c with
  | nil => exact sound_ok (.refl []) ⟨hleft.built, hleft.ends, fun t ht => by cases ht⟩
  | cons t rest =>
    rw [List.length_cons] at h
    dsimp only
    split
    · next hn =>
      refine sound_ok (.refl _) ⟨hleft.built, hleft.ends, hleft.stops.loosen fun first hf => ?_⟩
      cases hf
      exact hn
    · next node hn =>
      have hsum : left.endsInSum = true → level < sumLevel := by
        refine fun hopen => Nat.lt_of_not_le fun hlevel => ?_
        have hnone := (hleft.ends hopen t rfl).2 level hlevel
        rw [hn] at hnone
        cases hnone
      refine Sound.behind (.cons (isRead_of_operatorNode? hn)) ?_
      have hnext : Sound N (ReadAt (P (level + 1)) (level + 1)) rest
          (Grammar.chain (level + 1) rest) :=
        h.chain hl rest (by simp only [levels] at *; omega)
      refine hnext.bind fun right c₁ h₁ hright => ?_
      have hnode : ReadAt (P level) (level + 1) (node t.pos left right) c₁ := by
        refine ⟨B.operator t.pos hn hsum hleft.built hright.built, ?_, hright.stops⟩
        unfold EndsAt
        rw [endsInSum_node hn]
        exact hright.ends
      have hrest := h.chainRest hl c₁ hnode (by omega)
      exact hrest.bind fun _ _ _ he => sound_ok (.refl _) he

theorem signed_sound {c : Cursor} (h : SoundBelow N P Q (16 * c.length + 4)) :
    Sound N (ReadAt (P signLevel) levels) c (signed c) := by
  unfold signed
  split
  · next t c₁ h₁ ha =>
    refine sound_accept ha (by decide) ((h.signed c₁ (by omega)).bind fun _ _ _ he => ?_)
    exact sound_ok (.refl _) ⟨B.not t.pos he.built, he.ends, he.stops⟩
  · split
    · next t c₁ h₁ ha =>
      refine sound_accept ha (by decide) ((h.signed c₁ (by omega)).bind fun _ _ _ he => ?_)
      exact sound_ok (.refl _) ⟨B.negate t.pos he.built, he.ends, he.stops⟩
    · exact (h.tested c (by omega)).mono fun _ _ he => he.mono B.loosen

theorem tested_sound {c : Cursor} (h : SoundBelow N P Q (16 * c.length + 3)) :
    Sound N (ReadAt (P testLevel) levels) c (tested c) := by
  unfold tested
  refine (h.called c (by omega)).bind fun subject c₁ h₁ hs => ?_
  dsimp only
  split
  · next n c₂ h₂ ha =>
    refine sound_accept ha (by decide) ?_
    split
    · exact sound_unexpected _
    · next outcome ho =>
      refine (h.test hs.1 c₂ (by omega) outcome ho).bind fun e c₃ h₃ he => ?_
      obtain ⟨htest, hp, hends⟩ := he
      have hnot := B.refused n.pos htest hp
      exact (nullTests_sound B hnot hends).bind fun _ _ _ he => sound_ok (.refl _) he
  · split
    · have hsubject : P testLevel subject := B.loosen hs.1
      have hends := endsAt_of_closed hs.2 c₁
      exact (nullTests_sound B hsubject hends).bind fun _ _ _ he => sound_ok (.refl _) he
    · next outcome ho =>
      refine (h.test hs.1 c₁ (by omega) outcome ho).bind fun e c₃ h₃ he => ?_
      obtain ⟨-, hp, hends⟩ := he
      exact (nullTests_sound B hp hends).bind fun _ _ _ he => sound_ok (.refl _) he

theorem test_sound {subject : Expr} (hs : P callLevel subject) {c : Cursor}
    (h : SoundBelow N P Q (16 * c.length)) {outcome : Parsed Expr c.length}
    (ho : test? subject c = some outcome) :
    Sound N (fun e rest => e.isTest = true ∧ P testLevel e ∧ EndsAt e rest) c outcome := by
  cases c with
  | nil => simp [test?] at ho
  | cons t rest =>
    rw [List.length_cons] at h
    unfold test? at ho
    dsimp only at ho
    split at ho
    · next hk =>
      cases ho
      refine sound_cons hk (by decide) ?_
      refine (h.members rest (by omega)).bind fun _ c₁ _ hi => ?_
      exact sound_ok (.refl _) ⟨rfl, B.member t.pos hs hi.1 hi.2, endsAt_of_closed rfl c₁⟩
    · next hk =>
      cases ho
      refine sound_cons hk (by decide) ?_
      refine (h.sum (by omega)).bind fun low c₁ h₁ hlow => ?_
      refine sound_take (by decide) fun _ c₂ h₂ => ?_
      refine (h.sum (by omega)).bind fun _ _ _ hhigh => ?_
      have hbetween := B.between t.pos hs hlow.built hhigh.built
      exact sound_ok (.refl _) ⟨rfl, hbetween, fun _ => hhigh.stops⟩
    · next hk =>
      cases ho
      refine sound_cons hk (by decide) ?_
      refine (h.sum (by omega)).bind fun _ _ _ hp => ?_
      exact sound_ok (.refl _) ⟨rfl, B.like t.pos false hs hp.built, fun _ => hp.stops⟩
    · next hk =>
      cases ho
      refine sound_cons hk (by decide) ?_
      refine (h.sum (by omega)).bind fun _ _ _ hp => ?_
      exact sound_ok (.refl _) ⟨rfl, B.like t.pos true hs hp.built, fun _ => hp.stops⟩
    · cases ho

theorem members_sound {c : Cursor} (h : SoundBelow N P Q (16 * c.length)) :
    Sound N (fun es _ => es ≠ [] ∧ ∀ e ∈ es, P 0 e) c (members c) := by
  unfold members
  refine sound_take (by decide) fun _ c₁ h₁ => ?_
  dsimp only
  split
  · refine (h.select c₁ (by omega)).bind fun query c₂ h₂ hq => ?_
    refine sound_take (by decide) fun _ _ _ => sound_ok (.refl _) ⟨List.cons_ne_nil _ _, ?_⟩
    exact List.forall_mem_singleton.mpr (B.any (B.subquery hq))
  · split
    · exact sound_blame fun _ => rfl
    · refine (h.expressions c₁ (by omega)).bind fun items c₂ h₂ hi => ?_
      exact sound_take (by decide) fun _ _ _ => sound_ok (.refl _) hi

theorem called_sound {c : Cursor} (h : SoundBelow N P Q (16 * c.length + 2)) :
    Sound N (fun e _ => P callLevel e ∧ e.endsInSum = false) c (called c) := by
  unfold called
  refine (h.primary c (by omega)).bind fun callee c₁ h₁ hc => ?_
  have hrest := h.callRest (B.loosen hc.1) hc.2 c₁ (by omega)
  exact hrest.bind fun _ _ _ he => sound_ok (.refl _) he

theorem callRest_sound {callee : Expr} (hcallee : P callLevel callee)
    (hclosed : callee.endsInSum = false) {c : Cursor} (h : SoundBelow N P Q (16 * c.length)) :
    Sound N (fun e _ => P callLevel e ∧ e.endsInSum = false) c (callRest callee c) := by
  unfold callRest
  split
  · exact sound_ok (.refl c) ⟨hcallee, hclosed⟩
  · next t c₁ h₁ ha =>
    refine sound_accept ha (by decide) ?_
    refine (h.arguments c₁ (by omega)).bind fun args c₂ h₂ hargs => ?_
    refine sound_take (by decide) fun _ c₃ h₃ => ?_
    have hrest := h.callRest (B.call t.pos hargs.1 hcallee hargs.2) rfl c₃ (by omega)
    exact hrest.bind fun _ _ _ he => sound_ok (.refl _) he

theorem primary_sound {c : Cursor} (h : SoundBelow N P Q (16 * c.length + 1)) :
    Sound N (fun e _ => P primaryLevel e ∧ e.endsInSum = false) c (primary c) := by
  unfold primary
  cases c with
  | nil => exact sound_error (.refl []) Cursor.blames_nil
  | cons t rest =>
    rw [List.length_cons] at h
    dsimp only
    split
    · next hk =>
      refine sound_cons hk (by decide) ?_
      split
      · refine (h.select rest (by omega)).bind fun query c₁ h₁ hq => ?_
        exact sound_take (by decide) fun _ _ _ => sound_ok (.refl _) ⟨B.subquery hq, rfl⟩
      · refine (h.whole (by omega)).bind fun e c₁ h₁ he => ?_
        exact sound_take (by decide) fun _ _ _ => sound_ok (.refl _) ⟨B.group t.pos he, rfl⟩
    · have hselect := h.select (t :: rest) (by simp only [List.length_cons]; omega)
      exact hselect.bind fun _ _ _ hq => sound_ok (.refl _) ⟨B.subquery hq, rfl⟩
    · next hk =>
      refine sound_cons hk (by decide) ?_
      refine sound_take (by decide) fun _ c₁ h₁ => ?_
      refine (h.select c₁ (by omega)).bind fun query c₂ h₂ hq => ?_
      exact sound_take (by decide) fun _ _ _ => sound_ok (.refl _) ⟨B.existence t.pos hq, rfl⟩
    · next hk =>
      refine sound_cons hk (by decide) ?_
      refine (h.branches rest (by omega)).bind fun b c₁ h₁ hb => ?_
      obtain ⟨hlength, hwhens, hthens⟩ := hb
      dsimp only
      split
      · exact sound_unexpected _
      · next hne =>
        refine (h.clause .else c₁ (by omega)).bind fun otherwise c₂ h₂ ho => ?_
        refine sound_take (by decide) fun _ _ _ => sound_ok (.refl _) ⟨?_, rfl⟩
        exact B.case t.pos (by simpa using hne) hlength hwhens hthens ho
    · exact (columnRef_sound (t :: rest)).bind fun ref _ _ href =>
        sound_ok (.refl _) ⟨B.column href, rfl⟩
    · exact sound_blame fun _ => rfl
    · exact sound_blame fun _ => rfl
    all_goals first
      | exact sound_unexpected _
      | next hk =>
        exact sound_cons hk (by decide) (sound_ok (.refl rest) ⟨B.literal t.pos _, rfl⟩)

omit B in
theorem arguments_sound {c : Cursor} (h : SoundBelow N P Q (16 * c.length + 13)) :
    Sound N (fun args _ => (args.2 = true → args.1 = []) ∧ ∀ e ∈ args.1, P 0 e) c
      (arguments c) := by
  unfold arguments
  split
  · next ha => exact sound_accept ha (by decide) (sound_ok (.refl _) (by simp))
  · split
    · exact sound_ok (.refl c) (by simp)
    · refine (h.expressions c (by omega)).bind fun _ _ _ hargs => sound_ok (.refl _) ?_
      exact ⟨by simp, hargs.2⟩

omit B in
theorem branches_sound {c : Cursor} (h : SoundBelow N P Q (16 * c.length)) :
    Sound N (fun b _ => b.1.length = b.2.length ∧ (∀ e ∈ b.1, P 0 e) ∧ ∀ e ∈ b.2, P 0 e) c
      (branches c) := by
  unfold branches
  split
  · exact sound_ok (.refl c) ⟨rfl, by simp, by simp⟩
  · next t c₁ h₁ ha =>
    refine sound_accept ha (by decide) ?_
    refine (h.whole (by omega)).bind fun condition c₂ h₂ hcondition => ?_
    refine sound_take (by decide) fun _ c₃ h₃ => ?_
    refine (h.whole (by omega)).bind fun result c₄ h₄ hresult => ?_
    refine (h.branches c₄ (by omega)).bind fun b c₅ h₅ hb => ?_
    obtain ⟨hlength, hwhens, hthens⟩ := hb
    refine sound_ok (.refl _) ⟨?_, ?_, ?_⟩
    · exact congrArg (· + 1) hlength
    · exact List.forall_mem_cons.mpr ⟨hcondition, hwhens⟩
    · exact List.forall_mem_cons.mpr ⟨hresult, hthens⟩

omit B in
theorem expressions_sound {c : Cursor} (h : SoundBelow N P Q (16 * c.length + 12)) :
    Sound N (fun es _ => es ≠ [] ∧ ∀ e ∈ es, P 0 e) c (expressions c) := by
  unfold expressions
  refine (h.whole (by omega)).bind fun e c₁ h₁ he => ?_
  dsimp only
  split
  · exact sound_ok (.refl _) ⟨List.cons_ne_nil _ _, List.forall_mem_singleton.mpr he⟩
  · next t c₂ h₂ ha =>
    refine sound_accept ha (by decide) ?_
    refine (h.expressions c₂ (by omega)).bind fun _ _ _ hes => sound_ok (.refl _) ?_
    exact ⟨List.cons_ne_nil _ _, List.forall_mem_cons.mpr ⟨he, hes.2⟩⟩

omit B in
theorem clause_sound (k : Keyword) {c : Cursor} (h : SoundBelow N P Q (16 * c.length)) :
    Sound N (fun e? _ => ∀ e, e? = some e → P 0 e) c (clause k c) := by
  unfold clause
  split
  · exact sound_ok (.refl c) (by simp)
  · next t c₁ h₁ ha =>
    refine sound_accept ha rfl ?_
    refine (h.whole (by omega)).bind fun _ _ _ he => sound_ok (.refl _) ?_
    intro e hs
    cases hs
    exact he

theorem select_sound {c : Cursor} (h : SoundBelow N P Q (16 * c.length)) :
    Sound N (fun query _ => Q query) c (select c) := by
  unfold select
  refine sound_take (by decide) fun start c₁ h₁ => ?_
  dsimp only
  split
  · exact sound_blame fun _ => rfl
  · refine (h.selectList c₁ (by omega)).bind fun columns c₂ h₂ hcolumns => ?_
    dsimp only
    split
    · split
      · exact sound_blame fun _ => rfl
      · next hne =>
        refine refuse_sound (sound_ok (.refl c₂) (B.select ?_ (by simp) ?_ ?_))
        · exact ⟨hcolumns, by simp, by simp, by simp, by simp, by simp, by simp, by simp⟩
        · exact ⟨by simp, fun _ => ⟨by simpa using hne, rfl⟩, by simp⟩
        · exact ⟨by simp, by simp, by simp⟩
    · next t c₃ h₃ ha =>
      refine sound_accept ha (by decide) ?_
      refine (h.tableRef c₃ (by omega)).bind fun source c₄ h₄ hsource => ?_
      refine (h.joinList c₄ (by omega)).bind fun joins c₅ h₅ hjoins => ?_
      refine (h.clause .where c₅ (by omega)).bind fun filter c₆ h₆ hfilter => ?_
      refine (h.groupClause c₆ (by omega)).bind fun groupBy c₇ h₇ hgroupBy => ?_
      refine (h.clause .having c₇ (by omega)).bind fun having c₈ h₈ hhaving => ?_
      refine (orderClause_sound c₈).bind fun orderBy c₉ h₉ horderBy => ?_
      refine (h.clause .limit c₉ (by omega)).bind fun limit c₁₀ h₁₀ hlimit => ?_
      refine (h.clause .offset c₁₀ (by omega)).bind fun offset c₁₁ h₁₁ hoffset => ?_
      refine refuse_sound (sound_ok (.refl c₁₁) (B.select ?_ hgroupBy ?_ ?_))
      · refine ⟨hcolumns, fun ref hr => ?_, fun join hj => (hjoins join hj).1.1,
          fun join hj => (hjoins join hj).2.1, hfilter, hhaving, hlimit, hoffset⟩
        cases hr
        exact hsource.1
      · exact ⟨fun _ => rfl, by simp, fun join hj => (hjoins join hj).2.2⟩
      · refine ⟨fun ref hr => ?_, fun join hj => (hjoins join hj).1.2, horderBy⟩
        cases hr
        exact hsource.2

omit B in
theorem selectColumns_sound {c : Cursor} (h : SoundBelow N P Q (16 * c.length + 12)) :
    Sound N (fun columns _ => ∀ column ∈ columns, P 0 column.expr) c (selectColumns c) := by
  unfold selectColumns
  refine (h.whole (by omega)).bind fun e c₁ h₁ he => ?_
  refine (label_sound c₁).bind fun name c₂ h₂ _ => ?_
  dsimp only
  split
  · exact sound_ok (.refl _) (List.forall_mem_singleton.mpr he)
  · next t c₃ h₃ ha =>
    refine sound_accept ha (by decide) ?_
    refine (h.selectColumns c₃ (by omega)).bind fun _ _ _ hcolumns => ?_
    exact sound_ok (.refl _) (List.forall_mem_cons.mpr ⟨he, hcolumns⟩)

omit B in
theorem selectList_sound {c : Cursor} (h : SoundBelow N P Q (16 * c.length + 13)) :
    Sound N (fun columns _ => ∀ column ∈ columns, P 0 column.expr) c (selectList c) := by
  unfold selectList
  split
  · next ha => exact sound_accept ha (by decide) (sound_ok (.refl _) (by simp))
  · exact h.selectColumns c (by omega)

omit B in
theorem groupClause_sound {c : Cursor} (h : SoundBelow N P Q (16 * c.length)) :
    Sound N (fun keys _ => ∀ key ∈ keys, P 0 key) c (groupClause c) := by
  unfold groupClause
  split
  · exact sound_ok (.refl c) (by simp)
  · next t c₁ h₁ ha =>
    refine sound_accept ha (by decide) (sound_take (by decide) fun _ c₂ h₂ => ?_)
    exact (h.expressions c₂ (by omega)).bind fun _ _ _ hkeys => sound_ok (.refl _) hkeys.2

omit B in
theorem tableRef_sound {c : Cursor} (h : SoundBelow N P Q (16 * c.length)) :
    Sound N (fun ref _ => (∀ inner, ref.source = .subquery inner → Q inner) ∧ ref.Named N) c
      (tableRef c) := by
  unfold tableRef
  cases c with
  | nil => exact sound_error (.refl []) Cursor.blames_nil
  | cons t rest =>
    rw [List.length_cons] at h
    dsimp only
    split
    · next hk =>
      refine sound_of_names fun hc => sound_cons hk (by decide) ?_
      refine (label_sound rest).bind fun name _ _ hname => sound_ok (.refl _) ⟨by simp, ?_, hname⟩
      intro table htable
      cases htable
      exact hc t List.mem_cons_self hk
    · split
      · next hk =>
        refine sound_cons hk.1 (by decide) ?_
        refine (h.select rest (by omega)).bind fun query c₁ h₁ hq => ?_
        refine sound_take (by decide) fun _ c₂ h₂ => ?_
        refine (label_sound c₂).bind fun _ _ _ hname => ?_
        refine sound_ok (.refl _) ⟨fun inner hi => ?_, by simp, hname⟩
        cases hi
        exact hq
      · exact sound_unexpected _

omit B in
theorem joinList_sound {c : Cursor} (h : SoundBelow N P Q (16 * c.length)) :
    Sound N (fun joins _ => ∀ join ∈ joins,
      ((∀ inner, join.table.source = .subquery inner → Q inner) ∧ join.table.Named N) ∧
        (∀ e, join.condition = some e → P 0 e) ∧ (join.kind = .cross → join.condition = none)) c
      (joinList c) := by
  unfold joinList
  cases c with
  | nil => exact sound_ok (.refl []) (by simp)
  | cons t rest =>
    rw [List.length_cons] at h
    dsimp only
    split
    · exact sound_ok (.refl _) (by simp)
    · next kind needsJoin hk =>
      refine Sound.behind (.cons (isRead_of_joinStart? hk)) ?_
      refine (joinWords_sound t kind needsJoin rest).bind fun _ c₁ h₁ _ => ?_
      refine (h.tableRef c₁ (by omega)).bind fun table c₂ h₂ htable => ?_
      refine (h.onClause kind c₂ (by omega)).bind fun condition c₃ h₃ hcondition => ?_
      refine (h.joinList c₃ (by omega)).bind fun _ _ _ hjoins => ?_
      exact sound_ok (.refl _) (List.forall_mem_cons.mpr ⟨⟨htable, hcondition⟩, hjoins⟩)

omit B in
theorem onClause_sound (kind : JoinKind) {c : Cursor}
    (h : SoundBelow N P Q (16 * c.length + 1)) :
    Sound N (fun e? _ => (∀ e, e? = some e → P 0 e) ∧ (kind = .cross → e? = none)) c
      (onClause kind c) := by
  unfold onClause
  split
  · exact sound_ok (.refl c) (by simp)
  · next hk => exact (h.clause .on c (by omega)).mono fun _ _ he => ⟨he, fun hc => absurd hc hk⟩

/-- By induction on the measure all rules are sound. -/
theorem soundBelow (n : Nat) : SoundBelow N P Q n := by
  induction n using Nat.strongRecOn with
  | ind n ih =>
    exact
      { chain := fun hl c hn => chain_sound B hl (ih _ hn)
        chainRest := fun hl _ c hleft hn => chainRest_sound B hl hleft (ih _ hn)
        signed := fun c hn => signed_sound B (ih _ hn)
        tested := fun c hn => tested_sound B (ih _ hn)
        test := fun hs c hn _ => test_sound B hs (ih _ hn)
        members := fun c hn => members_sound B (ih _ hn)
        called := fun c hn => called_sound B (ih _ hn)
        callRest := fun hcallee hclosed c hn => callRest_sound B hcallee hclosed (ih _ hn)
        arguments := fun c hn => arguments_sound (ih _ hn)
        primary := fun c hn => primary_sound B (ih _ hn)
        branches := fun c hn => branches_sound (ih _ hn)
        expressions := fun c hn => expressions_sound (ih _ hn)
        clause := fun k c hn => clause_sound k (ih _ hn)
        select := fun c hn => select_sound B (ih _ hn)
        selectList := fun c hn => selectList_sound (ih _ hn)
        selectColumns := fun c hn => selectColumns_sound (ih _ hn)
        groupClause := fun c hn => groupClause_sound (ih _ hn)
        tableRef := fun c hn => tableRef_sound (ih _ hn)
        joinList := fun c hn => joinList_sound (ih _ hn)
        onClause := fun kind c hn => onClause_sound kind (ih _ hn) }

/-! ## Expressions and statements by themselves -/

theorem expression_sound (c : Cursor) : Sound N (fun e _ => P 0 e) c (expression c) :=
  (soundBelow B (16 * c.length + 12)).whole (by omega)

theorem statement_sound (c : Cursor) : Sound N (fun query _ => Q query) c (statement c) := by
  have hselect := (soundBelow B (16 * c.length + 1)).select c (by omega)
  unfold statement
  refine hselect.bind fun query c₁ h₁ hq => ?_
  dsimp only
  split
  · exact sound_ok (.refl c₁) hq
  · exact sound_take (by decide) fun _ _ _ => sound_ok (.refl _) hq

theorem single_sound (c : Cursor) : Sound N (fun query _ => Q query) c (single c) := by
  unfold single
  refine (statement_sound B c).bind fun query c₁ h₁ hq => ?_
  dsimp only
  split
  · exact sound_ok (.refl c₁) hq
  · exact sound_unexpected _

end

theorem read_ok {α : Type} {bound : Cursor → Nat} {rule : (c : Cursor) → Parsed α (bound c)}
    {text : String} {a : α} (h : read rule text = .ok a) :
    ∃ c step, Cursor.ofText? text = .ok c ∧ rule c = .ok step ∧ step.value = a := by
  unfold read at h
  cases hc : Cursor.ofText? text with
  | error e =>
    rw [hc] at h
    cases h
  | ok c =>
    cases hs : rule c with
    | error failure => simp [hc, hs, Bind.bind, Except.bind] at h
    | ok step => exact ⟨c, step, rfl, hs, by simpa [hc, hs, Bind.bind, Except.bind] using h⟩

/-- What a sound rule reads from a text with names of the sort `N` has the property; if it fails
behind the scanner, it blames a token. -/
theorem read_sound {α : Type} {bound : Cursor → Nat} {R : α → Prop}
    {rule : (c : Cursor) → Parsed α (bound c)} (h : ∀ c, Sound N (fun a _ => R a) c (rule c))
    {text : String} (hN : ∀ tokens, Token.scan? text = .ok tokens →
      Cursor.Names N tokens) :
    (∀ a, read rule text = .ok a → R a) ∧ ∀ e, read rule text = .error e →
      (∃ fault, Token.scan? text = .error fault ∧ e = .scan fault) ∨ e.token?.isSome := by
  unfold read Cursor.ofText?
  cases hs : Token.scan? text with
  | error fault =>
    refine ⟨nofun, fun e he => .inl ⟨fault, rfl, ?_⟩⟩
    cases he
    rfl
  | ok tokens =>
    have hc := Cursor.closed_ofTokens tokens
    have hnames := Cursor.names_ofTokens (hN tokens hs)
    simp only [bind, Except.bind]
    cases hr : rule (Cursor.ofTokens tokens) with
    | ok step =>
      refine ⟨fun a ha => ?_, fun e he => by cases he⟩
      cases ha
      exact ((h _).ok hnames step hr).2
    | error failure =>
      refine ⟨nofun, fun e he => .inr ?_⟩
      cases he
      obtain ⟨hread, hb⟩ := (h _).error hnames failure hr
      exact hb.token?_isSome (hread.closed hc).ne_nil

end Grammar

end TableQuery
