import Mathlib.Data.List.Forall2
import TableQuery.Proofs.Query.Grammar

/-! # Two readings side by side

Rules look at kinds, lexemes and literals of tokens, never at positions, and they read on neither at
a semicolon nor at an end token. So on two cursors whose tokens are alike, up to where statements
end, a rule comes to outcomes that are alike, too. Which positions count as alike is left open, and
so is where the cursors may part. -/

namespace TableQuery

/-! ## Likeness of tokens and trees -/

section

variable (R : Position → Position → Prop)

/-- The tokens differ in nothing but their positions, which are related. -/
structure Token.Like (t t' : Token) : Prop where
  kind : t.kind = t'.kind
  lexeme : t.lexeme = t'.lexeme
  literal : t.literal = t'.literal
  pos : R t.pos t'.pos

structure ColumnRef.Like (ref ref' : ColumnRef) : Prop where
  pos : R ref.pos ref'.pos
  table : ref.table = ref'.table
  name : ref.name = ref'.name

structure OrderKey.Like (key key' : OrderKey) : Prop where
  column : key.column.Like R key'.column
  direction : key.direction = key'.direction

variable (P : Expr → Expr → Prop) (Q : Select → Select → Prop)

structure SelectColumn.Like (column column' : SelectColumn) : Prop where
  expr : P column.expr column'.expr
  label : column.label = column'.label

inductive Source.Like : Source → Source → Prop
  | table (name : String) : Source.Like (.table name) (.table name)
  | subquery {query query' : Select} (h : Q query query') :
    Source.Like (.subquery query) (.subquery query')

structure TableRef.Like (ref ref' : TableRef) : Prop where
  pos : R ref.pos ref'.pos
  source : ref.source.Like Q ref'.source
  label : ref.label = ref'.label

structure Join.Like (join join' : Join) : Prop where
  pos : R join.pos join'.pos
  kind : join.kind = join'.kind
  table : join.table.Like R Q join'.table
  condition : Option.Rel P join.condition join'.condition

structure Select.Like (query query' : Select) : Prop where
  pos : R query.pos query'.pos
  star : query.star = query'.star
  columns : List.Forall₂ (SelectColumn.Like P) query.columns query'.columns
  source : Option.Rel (TableRef.Like R Q) query.source query'.source
  joins : List.Forall₂ (Join.Like R P Q) query.joins query'.joins
  filter : Option.Rel P query.filter query'.filter
  groupBy : List.Forall₂ P query.groupBy query'.groupBy
  having : Option.Rel P query.having query'.having
  orderBy : List.Forall₂ (OrderKey.Like R) query.orderBy query'.orderBy
  limit : Option.Rel P query.limit query'.limit
  offset : Option.Rel P query.offset query'.offset

/-- Relations of trees that go by their nodes: trees are related if they have the same node at the
root, at related positions, and related parts. -/
structure Likeness : Prop where
  literal : ∀ {p p' : Position} (v : Value), R p p' → P (.literal p v) (.literal p' v)
  column : ∀ {ref ref' : ColumnRef}, ref.Like R ref' → P (.column ref) (.column ref')
  binary : ∀ {p p' : Position} {l l' r r' : Expr} (op : Operator), R p p' → P l l' → P r r' →
    P (.binary p op l r) (.binary p' op l' r')
  logical : ∀ {p p' : Position} {l l' r r' : Expr} (op : Connective), R p p' → P l l' → P r r' →
    P (.logical p op l r) (.logical p' op l' r')
  not : ∀ {p p' : Position} {e e' : Expr}, R p p' → P e e' → P (.not p e) (.not p' e')
  negate : ∀ {p p' : Position} {e e' : Expr}, R p p' → P e e' → P (.negate p e) (.negate p' e')
  between : ∀ {p p' : Position} {v v' l l' h h' : Expr}, R p p' → P v v' → P l l' → P h h' →
    P (.between p v l h) (.between p' v' l' h')
  member : ∀ {p p' : Position} {v v' : Expr} {items items' : List Expr}, R p p' → P v v' →
    List.Forall₂ P items items' → P (.member p v items) (.member p' v' items')
  like : ∀ {p p' : Position} {v v' e e' : Expr} (ignoreCase : Bool), R p p' → P v v' → P e e' →
    P (.like p v e ignoreCase) (.like p' v' e' ignoreCase)
  isNull : ∀ {p p' : Position} {e e' : Expr}, R p p' → P e e' → P (.isNull p e) (.isNull p' e')
  case : ∀ {p p' : Position} {whens whens' thens thens' : List Expr}
    {otherwise otherwise' : Option Expr}, R p p' → List.Forall₂ P whens whens' →
    List.Forall₂ P thens thens' → Option.Rel P otherwise otherwise' →
    P (.case p whens thens otherwise) (.case p' whens' thens' otherwise')
  call : ∀ {p p' : Position} {callee callee' : Expr} {args args' : List Expr} (star : Bool),
    R p p' → P callee callee' → List.Forall₂ P args args' →
    P (.call p callee args star) (.call p' callee' args' star)
  group : ∀ {p p' : Position} {e e' : Expr}, R p p' → P e e' → P (.group p e) (.group p' e')
  existence : ∀ {p p' : Position} {query query' : Select}, R p p' → Q query query' →
    P (.existence p query) (.existence p' query')
  subquery : ∀ {query query' : Select}, Q query query' → P (.subquery query) (.subquery query')
  select : ∀ {query query' : Select}, query.Like R P Q query' → Q query query'

end

/-! ## Cursors -/

/-- The kinds of tokens that end a statement. -/
def TokenKind.isStop : TokenKind → Bool
  | .semicolon | .endOfText => true
  | _ => false

theorem TokenKind.ne_of_isStop {kind other : TokenKind} (h : kind.isStop = true)
    (ho : other.isStop = false) : kind ≠ other := by
  rintro rfl
  rw [h] at ho
  cases ho

namespace Cursor

/-- What two cursors have at hand: nothing, tokens that end a statement, or tokens that are alike
with related cursors behind them. -/
inductive Facing (R : Position → Position → Prop) (B : Cursor → Cursor → Prop) :
    Cursor → Cursor → Prop
  | empty : Facing R B [] []
  | stop {t t' : Token} {rest rest' : Cursor} (h : t.kind.isStop = true)
    (h' : t'.kind.isStop = true) : Facing R B (t :: rest) (t' :: rest')
  | like {t t' : Token} {rest rest' : Cursor} (h : t.Like R t') (hr : B rest rest') :
    Facing R B (t :: rest) (t' :: rest')

/-- The relation of cursors is kept while tokens are read. -/
def Tracks (R : Position → Position → Prop) (B : Cursor → Cursor → Prop) : Prop :=
  ∀ c c', B c c' → Facing R B c c'

variable {R : Position → Position → Prop} {B : Cursor → Cursor → Prop} {c c' : Cursor}

theorem Tracks.accept? (T : Tracks R B) (hb : B c c') (kind : TokenKind)
    (hk : kind.isStop = false) :
    (c.accept? kind = none ∧ c'.accept? kind = none) ∨
      ∃ t rest h t' rest' h', c.accept? kind = some ⟨t, rest, h⟩ ∧
        c'.accept? kind = some ⟨t', rest', h'⟩ ∧ t.Like R t' ∧ B rest rest' := by
  cases T c c' hb with
  | empty => exact .inl ⟨rfl, rfl⟩
  | stop h h' =>
    exact .inl ⟨if_neg (TokenKind.ne_of_isStop h hk), if_neg (TokenKind.ne_of_isStop h' hk)⟩
  | @like t t' rest rest' ht hr =>
    by_cases hkind : t.kind = kind
    · refine .inr ⟨t, rest, length_tail_lt t rest, t', rest', length_tail_lt t' rest', ?_, ?_, ht,
        hr⟩
      · exact if_pos hkind
      · exact if_pos (ht.kind ▸ hkind)
    · exact .inl ⟨if_neg hkind, if_neg (ht.kind ▸ hkind)⟩

theorem Tracks.at? (T : Tracks R B) (hb : B c c') (kind : TokenKind)
    (hk : kind.isStop = false) :
    c.at? kind = c'.at? kind := by
  cases T c c' hb with
  | empty => rfl
  | stop h h' =>
    have hne := beq_false_of_ne (TokenKind.ne_of_isStop h hk)
    have hne' := beq_false_of_ne (TokenKind.ne_of_isStop h' hk)
    simp [Cursor.at?, current?, hne, hne']
  | like ht _ => simp [Cursor.at?, current?, ht.kind]

end Cursor

/-! ## Outcomes -/

/-- The errors that blame a token, without the token. -/
inductive ParseError.Form : (Token → ParseError) → Prop
  | unexpected (expectation : String) : Form (.unexpectedToken · expectation)
  | invalid (reason : String) : Form (.invalidSyntax · reason)
  | unsupported (feature : String) : Form (.unsupported · feature)

namespace Parsed

variable {α β γ δ : Type} {k l m n : Nat}

/-- Both outcomes are values that are related, or both are failures of one form, and the cursors
they are found at are related. -/
inductive Alongside (B : Cursor → Cursor → Prop) (P : α → β → Prop) :
    Parsed α m → Parsed β n → Prop
  | ok {a : α} {b : β} {rest rest' : Cursor} {h : rest.length < m} {h' : rest'.length < n}
    (hp : P a b) (hr : B rest rest') : Alongside B P (.ok ⟨a, rest, h⟩) (.ok ⟨b, rest', h'⟩)
  | error {error : Token → ParseError} {c c' : Cursor} (hf : ParseError.Form error)
    (hr : B c c') : Alongside B P (.error (c.blame error)) (.error (c'.blame error))

variable {R : Position → Position → Prop} {B : Cursor → Cursor → Prop} {P : α → β → Prop}
  {Q : γ → δ → Prop} {c c' : Cursor}

theorem Alongside.bind {x : Parsed α m} {y : Parsed β n} {next : Step α m → Parsed γ k}
    {next' : Step β n → Parsed δ l} (h : Alongside B P x y)
    (hn : ∀ a b rest rest' (hr : rest.length < m) (hr' : rest'.length < n), P a b →
      B rest rest' → Alongside B Q (next ⟨a, rest, hr⟩) (next' ⟨b, rest', hr'⟩)) :
    Alongside B Q (x >>= next) (y >>= next') := by
  cases h with
  | ok hp hr => exact hn _ _ _ _ _ _ hp hr
  | error hf hr => exact .error hf hr

theorem alongside_take (T : Cursor.Tracks R B) (hb : B c c') {kind : TokenKind}
    (hk : kind.isStop = false) (expectation : String) :
    Alongside B (Token.Like R) (c.take kind expectation) (c'.take kind expectation) := by
  unfold Cursor.take
  rcases T.accept? hb kind hk with ⟨hx, hy⟩ | ⟨t, rest, h, t', rest', h', hx, hy, ht, hr⟩
  · rw [hx, hy]
    exact .error (.unexpected expectation) hb
  · rw [hx, hy]
    exact .ok ht hr

end Parsed

namespace Grammar

open Parsed

variable {R : Position → Position → Prop} {B : Cursor → Cursor → Prop}
  {P : Expr → Expr → Prop} {Q : Select → Select → Prop} {c c' : Cursor}

/-! ## Rules without expressions in them -/

section

variable (T : Cursor.Tracks R B)
include T

theorem columnRef_alongside (hb : B c c') :
    Alongside B (ColumnRef.Like R) (columnRef c) (columnRef c') := by
  unfold columnRef
  refine (alongside_take T hb (by decide) _).bind fun first first' c₁ c₁' h₁ h₁' hf hb₁ => ?_
  dsimp only
  rcases T.accept? hb₁ .dot (by decide) with
    ⟨hx, hy⟩ | ⟨t, c₂, h₂, t', c₂', h₂', hx, hy, _, hb₂⟩
  · rw [hx, hy]
    exact .ok ⟨hf.pos, rfl, hf.lexeme⟩ hb₁
  · rw [hx, hy]
    refine (alongside_take T hb₂ (by decide) _).bind fun name name' c₃ c₃' h₃ h₃' hn hb₃ => ?_
    exact .ok ⟨hn.pos, congrArg some hf.lexeme, hn.lexeme⟩ hb₃

theorem label_alongside (hb : B c c') : Alongside B Eq (label c) (label c') := by
  unfold label
  rcases T.accept? hb (.keyword .as) (by decide) with
    ⟨hx, hy⟩ | ⟨t, c₁, h₁, t', c₁', h₁', hx, hy, _, hb₁⟩
  · rw [hx, hy]
    dsimp only
    rcases T.accept? hb .identifier (by decide) with
      ⟨hx, hy⟩ | ⟨name, c₁, h₁, name', c₁', h₁', hx, hy, hn, hb₁⟩
    · rw [hx, hy]
      exact .ok rfl hb
    · rw [hx, hy]
      exact .ok (congrArg some hn.lexeme) hb₁
  · rw [hx, hy]
    refine (alongside_take T hb₁ (by decide) _).bind fun name name' c₂ c₂' h₂ h₂' hn hb₂ => ?_
    exact .ok (congrArg some hn.lexeme) hb₂

theorem direction_alongside (hb : B c c') :
    (direction c).value = (direction c').value ∧ B (direction c).rest (direction c').rest := by
  unfold direction
  rcases T.accept? hb (.keyword .desc) (by decide) with
    ⟨hx, hy⟩ | ⟨t, c₁, h₁, t', c₁', h₁', hx, hy, _, hb₁⟩
  · rw [hx, hy]
    dsimp only
    rcases T.accept? hb (.keyword .asc) (by decide) with
      ⟨hx, hy⟩ | ⟨t, c₁, h₁, t', c₁', h₁', hx, hy, _, hb₁⟩
    · rw [hx, hy]
      exact ⟨rfl, hb⟩
    · rw [hx, hy]
      exact ⟨rfl, hb₁⟩
  · rw [hx, hy]
    exact ⟨rfl, hb₁⟩

theorem orderKeys_alongside {c c' : Cursor} (hb : B c c') :
    Alongside B (List.Forall₂ (OrderKey.Like R)) (orderKeys c) (orderKeys c') := by
  unfold orderKeys
  refine (columnRef_alongside T hb).bind fun column column' c₁ c₁' h₁ h₁' hcolumn hb₁ => ?_
  have hway := direction_alongside T hb₁
  dsimp only
  generalize direction c₁ = step at hway ⊢
  generalize direction c₁' = step' at hway ⊢
  obtain ⟨way, c₂, h₂⟩ := step
  obtain ⟨way', c₂', h₂'⟩ := step'
  obtain ⟨hway, hb₂⟩ := hway
  dsimp only at hway hb₂ ⊢
  rcases T.accept? hb₂ .comma (by decide) with
    ⟨hx, hy⟩ | ⟨t, c₃, h₃, t', c₃', h₃', hx, hy, _, hb₃⟩
  · rw [hx, hy]
    exact .ok (.cons ⟨hcolumn, hway⟩ .nil) hb₂
  · rw [hx, hy]
    refine (orderKeys_alongside hb₃).bind fun keys keys' c₄ c₄' h₄ h₄' hkeys hb₄ => ?_
    exact .ok (.cons ⟨hcolumn, hway⟩ hkeys) hb₄
termination_by c.length

theorem orderClause_alongside (hb : B c c') :
    Alongside B (List.Forall₂ (OrderKey.Like R)) (orderClause c) (orderClause c') := by
  unfold orderClause
  rcases T.accept? hb (.keyword .order) (by decide) with
    ⟨hx, hy⟩ | ⟨t, c₁, h₁, t', c₁', h₁', hx, hy, _, hb₁⟩
  · rw [hx, hy]
    exact .ok .nil hb
  · rw [hx, hy]
    refine (alongside_take T hb₁ (by decide) _).bind fun _ _ c₂ c₂' h₂ h₂' _ hb₂ => ?_
    refine (orderKeys_alongside T hb₂).bind fun keys keys' c₃ c₃' h₃ h₃' hkeys hb₃ => ?_
    exact .ok hkeys hb₃

theorem nullTests_alongside (L : Likeness R P Q) {subject subject' : Expr} {c c' : Cursor}
    (hs : P subject subject') (hb : B c c') :
    Alongside B P (nullTests subject c) (nullTests subject' c') := by
  unfold nullTests
  rcases T.accept? hb (.keyword .is) (by decide) with
    ⟨hx, hy⟩ | ⟨t, c₁, h₁, t', c₁', h₁', hx, hy, ht, hb₁⟩
  · rw [hx, hy]
    exact .ok hs hb
  · rw [hx, hy]
    dsimp only
    rcases T.accept? hb₁ (.keyword .not) (by decide) with
      ⟨hx, hy⟩ | ⟨n, c₂, h₂, n', c₂', h₂', hx, hy, hn, hb₂⟩
    · rw [hx, hy]
      refine (alongside_take T hb₁ (by decide) _).bind fun _ _ c₂ c₂' h₂ h₂' _ hb₂ => ?_
      refine (nullTests_alongside L (L.isNull ht.pos hs) hb₂).bind fun _ _ _ _ _ _ he hb₃ => ?_
      exact .ok he hb₃
    · rw [hx, hy]
      refine (alongside_take T hb₂ (by decide) _).bind fun _ _ c₃ c₃' h₃ h₃' _ hb₃ => ?_
      have htest := L.not hn.pos (L.isNull ht.pos hs)
      refine (nullTests_alongside L htest hb₃).bind fun _ _ _ _ _ _ he hb₄ => ?_
      exact .ok he hb₄
termination_by c.length

/-- The words of a join name its first word where they fail, so that has to be the same one. -/
theorem joinWords_alongside {start start' : Token} (hl : start.lexeme = start'.lexeme)
    (kind : JoinKind) (needsJoin : Bool) (hb : B c c') :
    Alongside B (fun _ _ => True) (joinWords start kind needsJoin c)
      (joinWords start' kind needsJoin c') := by
  unfold joinWords
  rw [hl]
  split
  · dsimp only
    have hplain : Alongside B (Token.Like R)
        (c.take (.keyword .join) ("Expected 'join' after '" ++ start'.lexeme ++ "'"))
        (c'.take (.keyword .join) ("Expected 'join' after '" ++ start'.lexeme ++ "'")) :=
      alongside_take T hb (by decide) _
    cases allowsOuter kind with
    | false => exact hplain.bind fun _ _ _ _ _ _ _ hb₁ => .ok trivial hb₁
    | true =>
      simp only [if_true]
      rcases T.accept? hb (.keyword .outer) (by decide) with
        ⟨hx, hy⟩ | ⟨t, c₁, h₁, t', c₁', h₁', hx, hy, _, hb₁⟩
      · rw [hx, hy]
        exact hplain.bind fun _ _ _ _ _ _ _ hb₁ => .ok trivial hb₁
      · rw [hx, hy]
        refine (alongside_take T hb₁ (by decide) _).bind fun _ _ _ _ _ _ _ hb₂ => ?_
        exact .ok trivial hb₂
  · exact .ok trivial hb

omit T in
theorem setOperation?_stop {kind : TokenKind} (h : kind.isStop = true) :
    setOperation? kind = none := by
  cases kind <;> first | rfl | cases h

omit T in
theorem joinStart?_stop {kind : TokenKind} (h : kind.isStop = true) : joinStart? kind = none := by
  cases kind <;> first | rfl | cases h

omit T in
theorem operatorNode?_stop (level : Nat) {kind : TokenKind} (h : kind.isStop = true) :
    operatorNode? level kind = none := by
  unfold operatorNode?
  split <;> first | rfl | cases h

omit T in
theorem test?_stop (subject : Expr) {t : Token} (rest : Cursor) (h : t.kind.isStop = true) :
    test? subject (t :: rest) = none := by
  unfold test?
  dsimp only
  split <;> first | rfl | exact absurd ‹_› (TokenKind.ne_of_isStop h (by decide))

omit T in
theorem primary_stop {t : Token} (rest : Cursor) (h : t.kind.isStop = true) :
    primary (t :: rest) = .error (Cursor.unexpected (t :: rest) "Expected expression") := by
  unfold primary
  dsimp only
  split <;> first | rfl | exact absurd ‹_› (TokenKind.ne_of_isStop h (by decide))

/-- A set operation is refused on both sides. -/
theorem refuse_alongside {α β : Type} {m n : Nat} {S : α → β → Prop} (hb : B c c')
    {next : Unit → Parsed α m} {next' : Unit → Parsed β n}
    (h : Alongside B S (next ()) (next' ())) :
    Alongside B S (refuseSetOperation c >>= next) (refuseSetOperation c' >>= next') := by
  unfold refuseSetOperation
  have hf := T c c' hb
  cases hf with
  | empty => exact .error (.unsupported "") hb
  | stop hk hk' =>
    simp only [Cursor.current?, List.head?_cons, setOperation?_stop hk, setOperation?_stop hk']
    exact h
  | like ht hr =>
    simp only [Cursor.current?, List.head?_cons, ht.kind]
    split
    · exact .error (.unsupported _) hb
    · exact h

end

/-! ## Expressions and queries

The induction is the one that shows the rules sound: on the measure of a rule, for the first of the
two cursors. -/

/-- All rules go side by side where their measure on the first cursor is below `n`. -/
structure AlongsideBelow (B : Cursor → Cursor → Prop) (R : Position → Position → Prop)
    (P : Expr → Expr → Prop) (Q : Select → Select → Prop) (n : Nat) : Prop where
  chain : ∀ (level : Nat) {c c' : Cursor}, B c c' → 16 * c.length + (5 + (levels - level)) < n →
    Alongside B P (chain level c) (chain level c')
  chainRest : ∀ (level : Nat) {left left' : Expr} {c c' : Cursor}, P left left' → B c c' →
    16 * c.length < n → Alongside B P (chainRest level left c) (chainRest level left' c')
  signed : ∀ {c c' : Cursor}, B c c' → 16 * c.length + 4 < n →
    Alongside B P (signed c) (signed c')
  tested : ∀ {c c' : Cursor}, B c c' → 16 * c.length + 3 < n →
    Alongside B P (tested c) (tested c')
  test : ∀ {subject subject' : Expr} {c c' : Cursor}, P subject subject' → B c c' →
    16 * c.length < n → Option.Rel (Alongside B P) (test? subject c) (test? subject' c')
  members : ∀ {c c' : Cursor}, B c c' → 16 * c.length < n →
    Alongside B (List.Forall₂ P) (members c) (members c')
  called : ∀ {c c' : Cursor}, B c c' → 16 * c.length + 2 < n →
    Alongside B P (called c) (called c')
  callRest : ∀ {callee callee' : Expr} {c c' : Cursor}, P callee callee' → B c c' →
    16 * c.length < n → Alongside B P (callRest callee c) (callRest callee' c')
  arguments : ∀ {c c' : Cursor}, B c c' → 16 * c.length + 13 < n →
    Alongside B (fun args args' => List.Forall₂ P args.1 args'.1 ∧ args.2 = args'.2)
      (arguments c) (arguments c')
  primary : ∀ {c c' : Cursor}, B c c' → 16 * c.length + 1 < n →
    Alongside B P (primary c) (primary c')
  branches : ∀ {c c' : Cursor}, B c c' → 16 * c.length < n →
    Alongside B (fun b b' => List.Forall₂ P b.1 b'.1 ∧ List.Forall₂ P b.2 b'.2)
      (branches c) (branches c')
  expressions : ∀ {c c' : Cursor}, B c c' → 16 * c.length + 12 < n →
    Alongside B (List.Forall₂ P) (expressions c) (expressions c')
  clause : ∀ (k : Keyword) {c c' : Cursor}, B c c' → 16 * c.length < n →
    Alongside B (Option.Rel P) (clause k c) (clause k c')
  select : ∀ {c c' : Cursor}, B c c' → 16 * c.length < n →
    Alongside B Q (select c) (select c')
  selectList : ∀ {c c' : Cursor}, B c c' → 16 * c.length + 13 < n →
    Alongside B (List.Forall₂ (SelectColumn.Like P)) (selectList c) (selectList c')
  selectColumns : ∀ {c c' : Cursor}, B c c' → 16 * c.length + 12 < n →
    Alongside B (List.Forall₂ (SelectColumn.Like P)) (selectColumns c) (selectColumns c')
  groupClause : ∀ {c c' : Cursor}, B c c' → 16 * c.length < n →
    Alongside B (List.Forall₂ P) (groupClause c) (groupClause c')
  tableRef : ∀ {c c' : Cursor}, B c c' → 16 * c.length < n →
    Alongside B (TableRef.Like R Q) (tableRef c) (tableRef c')
  joinList : ∀ {c c' : Cursor}, B c c' → 16 * c.length < n →
    Alongside B (List.Forall₂ (Join.Like R P Q)) (joinList c) (joinList c')
  onClause : ∀ (kind : JoinKind) {c c' : Cursor}, B c c' → 16 * c.length + 1 < n →
    Alongside B (Option.Rel P) (onClause kind c) (onClause kind c')

section

variable (T : Cursor.Tracks R B) (L : Likeness R P Q)
include T L

omit T L in
theorem chain_alongside (level : Nat) (hb : B c c')
    (h : AlongsideBelow B R P Q (16 * c.length + (5 + (levels - level)))) :
    Alongside B P (chain level c) (chain level c') := by
  unfold chain
  split
  · next hlt =>
    have hnext : Alongside B P (Grammar.chain (level + 1) c) (Grammar.chain (level + 1) c') :=
      h.chain (level + 1) hb (by simp only [levels] at *; omega)
    refine hnext.bind fun left left' c₁ c₁' h₁ h₁' hleft hb₁ => ?_
    refine (h.chainRest level hleft hb₁ (by omega)).bind fun _ _ _ _ _ _ he hb₂ => ?_
    exact .ok he hb₂
  · exact h.signed hb (by omega)

theorem chainRest_alongside (level : Nat) {left left' : Expr} (hl : P left left') (hb : B c c')
    (h : AlongsideBelow B R P Q (16 * c.length)) :
    Alongside B P (chainRest level left c) (chainRest level left' c') := by
  unfold chainRest
  have hf := T c c' hb
  cases hf with
  | empty => exact .ok hl hb
  | stop hk hk' =>
    simp only [operatorNode?_stop level hk, operatorNode?_stop level hk']
    exact .ok hl hb
  | @like t t' rest rest' ht hr =>
    rw [List.length_cons] at h
    simp only [ht.kind]
    split
    · exact .ok hl hb
    · next node hn =>
      have hnext : Alongside B P (Grammar.chain (level + 1) rest)
          (Grammar.chain (level + 1) rest') :=
        h.chain (level + 1) hr (by simp only [levels] at *; omega)
      refine hnext.bind fun right right' c₁ c₁' h₁ h₁' hright hb₁ => ?_
      have hnode : P (node t.pos left right) (node t'.pos left' right') := by
        rcases operatorNode?_cases hn with ⟨op, rfl⟩ | ⟨op, rfl⟩
        · exact L.logical op ht.pos hl hright
        · exact L.binary op ht.pos hl hright
      refine (h.chainRest level hnode hb₁ (by omega)).bind fun _ _ _ _ _ _ he hb₂ => ?_
      exact .ok he hb₂

theorem signed_alongside (hb : B c c') (h : AlongsideBelow B R P Q (16 * c.length + 4)) :
    Alongside B P (signed c) (signed c') := by
  unfold signed
  rcases T.accept? hb (.keyword .not) (by decide) with
    ⟨hx, hy⟩ | ⟨t, c₁, h₁, t', c₁', h₁', hx, hy, ht, hb₁⟩
  · rw [hx, hy]
    dsimp only
    rcases T.accept? hb .minus (by decide) with
      ⟨hx, hy⟩ | ⟨t, c₁, h₁, t', c₁', h₁', hx, hy, ht, hb₁⟩
    · rw [hx, hy]
      exact h.tested hb (by omega)
    · rw [hx, hy]
      refine (h.signed hb₁ (by omega)).bind fun _ _ _ _ _ _ he hb₂ => ?_
      exact .ok (L.negate ht.pos he) hb₂
  · rw [hx, hy]
    refine (h.signed hb₁ (by omega)).bind fun _ _ _ _ _ _ he hb₂ => ?_
    exact .ok (L.not ht.pos he) hb₂

theorem tested_alongside (hb : B c c') (h : AlongsideBelow B R P Q (16 * c.length + 3)) :
    Alongside B P (tested c) (tested c') := by
  unfold tested
  refine (h.called hb (by omega)).bind fun subject subject' c₁ c₁' h₁ h₁' hs hb₁ => ?_
  dsimp only
  rcases T.accept? hb₁ (.keyword .not) (by decide) with
    ⟨hx, hy⟩ | ⟨n, c₂, h₂, n', c₂', h₂', hx, hy, hn, hb₂⟩
  · rw [hx, hy]
    dsimp only
    have htest := h.test hs hb₁ (by omega)
    generalize test? subject c₁ = x at htest ⊢
    generalize test? subject' c₁' = y at htest ⊢
    cases htest with
    | none =>
      refine (nullTests_alongside T L hs hb₁).bind fun _ _ _ _ _ _ he hb₂ => ?_
      exact .ok he hb₂
    | some ho =>
      refine ho.bind fun e e' c₂ c₂' h₂ h₂' he hb₂ => ?_
      refine (nullTests_alongside T L he hb₂).bind fun _ _ _ _ _ _ he hb₃ => ?_
      exact .ok he hb₃
  · rw [hx, hy]
    dsimp only
    have htest := h.test hs hb₂ (by omega)
    generalize test? subject c₂ = x at htest ⊢
    generalize test? subject' c₂' = y at htest ⊢
    cases htest with
    | none => exact .error (.unexpected _) hb₂
    | some ho =>
      refine ho.bind fun e e' c₃ c₃' h₃ h₃' he hb₃ => ?_
      refine (nullTests_alongside T L (L.not hn.pos he) hb₃).bind fun _ _ _ _ _ _ he hb₄ => ?_
      exact .ok he hb₄

theorem test_alongside {subject subject' : Expr} (hs : P subject subject') (hb : B c c')
    (h : AlongsideBelow B R P Q (16 * c.length)) :
    Option.Rel (Alongside B P) (test? subject c) (test? subject' c') := by
  have hf := T c c' hb
  cases hf with
  | empty =>
    unfold test?
    exact .none
  | @stop t t' rest rest' hk hk' =>
    rw [test?_stop subject rest hk, test?_stop subject' rest' hk']
    exact .none
  | @like t t' rest rest' ht hr =>
    rw [List.length_cons] at h
    have hsum {c₁ c₁' : Cursor} (hb₁ : B c₁ c₁') (hn : c₁.length ≤ rest.length) :
        Alongside B P (Grammar.chain sumLevel c₁) (Grammar.chain sumLevel c₁') :=
      h.chain sumLevel hb₁ (by simp only [levels, sumLevel]; omega)
    unfold test?
    simp only [ht.kind]
    split
    · refine .some ((h.members hr (by omega)).bind fun _ _ _ _ _ _ hi hb₁ => ?_)
      exact .ok (L.member ht.pos hs hi) hb₁
    · refine .some ((hsum hr (Nat.le_refl _)).bind fun low low' c₁ c₁' h₁ h₁' hlow hb₁ => ?_)
      refine (alongside_take T hb₁ (by decide) _).bind fun _ _ c₂ c₂' h₂ h₂' _ hb₂ => ?_
      refine (hsum hb₂ (by omega)).bind fun _ _ _ _ _ _ hhigh hb₃ => ?_
      exact .ok (L.between ht.pos hs hlow hhigh) hb₃
    · refine .some ((hsum hr (Nat.le_refl _)).bind fun _ _ _ _ _ _ hp hb₁ => ?_)
      exact .ok (L.like false ht.pos hs hp) hb₁
    · refine .some ((hsum hr (Nat.le_refl _)).bind fun _ _ _ _ _ _ hp hb₁ => ?_)
      exact .ok (L.like true ht.pos hs hp) hb₁
    · exact .none

theorem members_alongside (hb : B c c') (h : AlongsideBelow B R P Q (16 * c.length)) :
    Alongside B (List.Forall₂ P) (members c) (members c') := by
  unfold members
  refine (alongside_take T hb (by decide) _).bind fun _ _ c₁ c₁' h₁ h₁' _ hb₁ => ?_
  dsimp only
  rw [T.at? hb₁ (.keyword .select) (by decide), T.at? hb₁ .rightParen (by decide)]
  split
  · refine (h.select hb₁ (by omega)).bind fun query query' c₂ c₂' h₂ h₂' hq hb₂ => ?_
    refine (alongside_take T hb₂ (by decide) _).bind fun _ _ _ _ _ _ _ hb₃ => ?_
    exact .ok (.cons (L.subquery hq) .nil) hb₃
  · split
    · exact .error (.invalid _) hb₁
    · refine (h.expressions hb₁ (by omega)).bind fun items items' c₂ c₂' h₂ h₂' hi hb₂ => ?_
      refine (alongside_take T hb₂ (by decide) _).bind fun _ _ _ _ _ _ _ hb₃ => ?_
      exact .ok hi hb₃

omit T L in
theorem called_alongside (hb : B c c') (h : AlongsideBelow B R P Q (16 * c.length + 2)) :
    Alongside B P (called c) (called c') := by
  unfold called
  refine (h.primary hb (by omega)).bind fun callee callee' c₁ c₁' h₁ h₁' hc hb₁ => ?_
  exact (h.callRest hc hb₁ (by omega)).bind fun _ _ _ _ _ _ he hb₂ => .ok he hb₂

theorem callRest_alongside {callee callee' : Expr} (hc : P callee callee') (hb : B c c')
    (h : AlongsideBelow B R P Q (16 * c.length)) :
    Alongside B P (callRest callee c) (callRest callee' c') := by
  unfold callRest
  rcases T.accept? hb .leftParen (by decide) with
    ⟨hx, hy⟩ | ⟨t, c₁, h₁, t', c₁', h₁', hx, hy, ht, hb₁⟩
  · rw [hx, hy]
    exact .ok hc hb
  · rw [hx, hy]
    refine (h.arguments hb₁ (by omega)).bind fun args args' c₂ c₂' h₂ h₂' ha hb₂ => ?_
    obtain ⟨args, star⟩ := args
    obtain ⟨args', star'⟩ := args'
    obtain ⟨ha, rfl⟩ := ha
    refine (alongside_take T hb₂ (by decide) _).bind fun _ _ c₃ c₃' h₃ h₃' _ hb₃ => ?_
    have hcall := L.call star ht.pos hc ha
    exact (h.callRest hcall hb₃ (by omega)).bind fun _ _ _ _ _ _ he hb₄ => .ok he hb₄

omit L in
theorem arguments_alongside (hb : B c c') (h : AlongsideBelow B R P Q (16 * c.length + 13)) :
    Alongside B (fun args args' => List.Forall₂ P args.1 args'.1 ∧ args.2 = args'.2)
      (arguments c) (arguments c') := by
  unfold arguments
  rcases T.accept? hb .star (by decide) with
    ⟨hx, hy⟩ | ⟨t, c₁, h₁, t', c₁', h₁', hx, hy, _, hb₁⟩
  · rw [hx, hy, T.at? hb .rightParen (by decide)]
    dsimp only
    split
    · exact .ok ⟨.nil, rfl⟩ hb
    · exact (h.expressions hb (by omega)).bind fun _ _ _ _ _ _ ha hb₁ => .ok ⟨ha, rfl⟩ hb₁
  · rw [hx, hy]
    exact .ok ⟨.nil, rfl⟩ hb₁

theorem primary_alongside (hb : B c c') (h : AlongsideBelow B R P Q (16 * c.length + 1)) :
    Alongside B P (primary c) (primary c') := by
  have hf := T c c' hb
  cases hf with
  | empty =>
    unfold primary
    exact .error (.unexpected "") hb
  | @stop t t' rest rest' hk hk' =>
    rw [primary_stop rest hk, primary_stop rest' hk']
    exact .error (.unexpected _) hb
  | @like t t' rest rest' ht hr =>
    have hquery := h.select hb (by omega)
    rw [List.length_cons] at h
    unfold primary
    simp only [ht.kind]
    split
    · rw [T.at? hr (.keyword .select) (by decide)]
      split
      · refine (h.select hr (by omega)).bind fun query query' c₁ c₁' h₁ h₁' hq hb₁ => ?_
        refine (alongside_take T hb₁ (by decide) _).bind fun _ _ _ _ _ _ _ hb₂ => ?_
        exact .ok (L.subquery hq) hb₂
      · refine (h.chain 0 hr (by simp only [levels]; omega)).bind
          fun e e' c₁ c₁' h₁ h₁' he hb₁ => ?_
        refine (alongside_take T hb₁ (by decide) _).bind fun _ _ _ _ _ _ _ hb₂ => ?_
        exact .ok (L.group ht.pos he) hb₂
    · exact hquery.bind fun _ _ _ _ _ _ hq hb₁ => .ok (L.subquery hq) hb₁
    · refine (alongside_take T hr (by decide) _).bind fun _ _ c₁ c₁' h₁ h₁' _ hb₁ => ?_
      refine (h.select hb₁ (by omega)).bind fun query query' c₂ c₂' h₂ h₂' hq hb₂ => ?_
      refine (alongside_take T hb₂ (by decide) _).bind fun _ _ _ _ _ _ _ hb₃ => ?_
      exact .ok (L.existence ht.pos hq) hb₃
    · refine (h.branches hr (by omega)).bind fun b b' c₁ c₁' h₁ h₁' hbr hb₁ => ?_
      obtain ⟨whens, thens⟩ := b
      obtain ⟨whens', thens'⟩ := b'
      obtain ⟨hwhens, hthens⟩ := hbr
      dsimp only at hwhens hthens ⊢
      have hempty : whens.isEmpty = whens'.isEmpty := by cases hwhens <;> rfl
      rw [hempty]
      split
      · exact .error (.unexpected _) hb₁
      · refine (h.clause .else hb₁ (by omega)).bind
          fun otherwise otherwise' c₂ c₂' h₂ h₂' ho hb₂ => ?_
        refine (alongside_take T hb₂ (by decide) _).bind fun _ _ _ _ _ _ _ hb₃ => ?_
        exact .ok (L.case ht.pos hwhens hthens ho) hb₃
    · exact (columnRef_alongside T hb).bind fun _ _ _ _ _ _ href hb₁ => .ok (L.column href) hb₁
    · exact .error (.unsupported _) hb
    · exact .error (.unsupported _) hb
    all_goals first
      | exact .error (.unexpected _) hb
      | rw [ht.literal]
        exact .ok (L.literal _ ht.pos) hr

omit L in
theorem branches_alongside (hb : B c c') (h : AlongsideBelow B R P Q (16 * c.length)) :
    Alongside B (fun b b' => List.Forall₂ P b.1 b'.1 ∧ List.Forall₂ P b.2 b'.2)
      (branches c) (branches c') := by
  unfold branches
  rcases T.accept? hb (.keyword .when) (by decide) with
    ⟨hx, hy⟩ | ⟨t, c₁, h₁, t', c₁', h₁', hx, hy, _, hb₁⟩
  · rw [hx, hy]
    exact .ok ⟨.nil, .nil⟩ hb
  · rw [hx, hy]
    refine (h.chain 0 hb₁ (by simp only [levels]; omega)).bind
      fun condition condition' c₂ c₂' h₂ h₂' hcondition hb₂ => ?_
    refine (alongside_take T hb₂ (by decide) _).bind fun _ _ c₃ c₃' h₃ h₃' _ hb₃ => ?_
    refine (h.chain 0 hb₃ (by simp only [levels]; omega)).bind
      fun result result' c₄ c₄' h₄ h₄' hresult hb₄ => ?_
    refine (h.branches hb₄ (by omega)).bind fun b b' c₅ c₅' h₅ h₅' hbr hb₅ => ?_
    exact .ok ⟨.cons hcondition hbr.1, .cons hresult hbr.2⟩ hb₅

omit L in
theorem expressions_alongside (hb : B c c') (h : AlongsideBelow B R P Q (16 * c.length + 12)) :
    Alongside B (List.Forall₂ P) (expressions c) (expressions c') := by
  unfold expressions
  refine (h.chain 0 hb (by simp only [levels]; omega)).bind fun e e' c₁ c₁' h₁ h₁' he hb₁ => ?_
  dsimp only
  rcases T.accept? hb₁ .comma (by decide) with
    ⟨hx, hy⟩ | ⟨t, c₂, h₂, t', c₂', h₂', hx, hy, _, hb₂⟩
  · rw [hx, hy]
    exact .ok (.cons he .nil) hb₁
  · rw [hx, hy]
    refine (h.expressions hb₂ (by omega)).bind fun es es' c₃ c₃' h₃ h₃' hes hb₃ => ?_
    exact .ok (.cons he hes) hb₃

omit L in
theorem clause_alongside (k : Keyword) (hb : B c c')
    (h : AlongsideBelow B R P Q (16 * c.length)) :
    Alongside B (Option.Rel P) (clause k c) (clause k c') := by
  unfold clause
  rcases T.accept? hb (.keyword k) rfl with
    ⟨hx, hy⟩ | ⟨t, c₁, h₁, t', c₁', h₁', hx, hy, _, hb₁⟩
  · rw [hx, hy]
    exact .ok .none hb
  · rw [hx, hy]
    refine (h.chain 0 hb₁ (by simp only [levels]; omega)).bind fun _ _ _ _ _ _ he hb₂ => ?_
    exact .ok (.some he) hb₂

theorem select_alongside (hb : B c c') (h : AlongsideBelow B R P Q (16 * c.length)) :
    Alongside B Q (select c) (select c') := by
  unfold select
  refine (alongside_take T hb (by decide) _).bind fun start start' c₁ c₁' h₁ h₁' hs hb₁ => ?_
  dsimp only
  rw [T.at? hb₁ (.keyword .distinct) (by decide)]
  split
  · exact .error (.unsupported _) hb₁
  · refine (h.selectList hb₁ (by omega)).bind
      fun columns columns' c₂ c₂' h₂ h₂' hcolumns hb₂ => ?_
    have hstar : columns.isEmpty = columns'.isEmpty := by cases hcolumns <;> rfl
    dsimp only
    rw [hstar]
    rcases T.accept? hb₂ (.keyword .from) (by decide) with
      ⟨hx, hy⟩ | ⟨t, c₃, h₃, t', c₃', h₃', hx, hy, _, hb₃⟩
    · rw [hx, hy]
      dsimp only
      split
      · exact .error (.invalid _) hb₂
      · refine refuse_alongside T hb₂ (.ok (L.select ?_) hb₂)
        exact ⟨hs.pos, rfl, hcolumns, .none, .nil, .none, .nil, .none, .nil, .none, .none⟩
    · rw [hx, hy]
      dsimp only
      refine (h.tableRef hb₃ (by omega)).bind fun source source' c₄ c₄' h₄ h₄' hsource hb₄ => ?_
      refine (h.joinList hb₄ (by omega)).bind fun joins joins' c₅ c₅' h₅ h₅' hjoins hb₅ => ?_
      refine (h.clause .where hb₅ (by omega)).bind
        fun filter filter' c₆ c₆' h₆ h₆' hfilter hb₆ => ?_
      refine (h.groupClause hb₆ (by omega)).bind
        fun groupBy groupBy' c₇ c₇' h₇ h₇' hgroupBy hb₇ => ?_
      refine (h.clause .having hb₇ (by omega)).bind
        fun having having' c₈ c₈' h₈ h₈' hhaving hb₈ => ?_
      refine (orderClause_alongside T hb₈).bind
        fun orderBy orderBy' c₉ c₉' h₉ h₉' horderBy hb₉ => ?_
      refine (h.clause .limit hb₉ (by omega)).bind
        fun limit limit' c₁₀ c₁₀' h₁₀ h₁₀' hlimit hb₁₀ => ?_
      refine (h.clause .offset hb₁₀ (by omega)).bind
        fun offset offset' c₁₁ c₁₁' h₁₁ h₁₁' hoffset hb₁₁ => ?_
      refine refuse_alongside T hb₁₁ (.ok (L.select ?_) hb₁₁)
      exact ⟨hs.pos, rfl, hcolumns, .some hsource, hjoins, hfilter, hgroupBy, hhaving, horderBy,
        hlimit, hoffset⟩

omit L in
theorem selectColumns_alongside (hb : B c c')
    (h : AlongsideBelow B R P Q (16 * c.length + 12)) :
    Alongside B (List.Forall₂ (SelectColumn.Like P)) (selectColumns c) (selectColumns c') := by
  unfold selectColumns
  refine (h.chain 0 hb (by simp only [levels]; omega)).bind fun e e' c₁ c₁' h₁ h₁' he hb₁ => ?_
  refine (label_alongside T hb₁).bind fun name name' c₂ c₂' h₂ h₂' hn hb₂ => ?_
  dsimp only
  rcases T.accept? hb₂ .comma (by decide) with
    ⟨hx, hy⟩ | ⟨t, c₃, h₃, t', c₃', h₃', hx, hy, _, hb₃⟩
  · rw [hx, hy]
    exact .ok (.cons ⟨he, hn⟩ .nil) hb₂
  · rw [hx, hy]
    refine (h.selectColumns hb₃ (by omega)).bind fun _ _ _ _ _ _ hcolumns hb₄ => ?_
    exact .ok (.cons ⟨he, hn⟩ hcolumns) hb₄

omit L in
theorem selectList_alongside (hb : B c c') (h : AlongsideBelow B R P Q (16 * c.length + 13)) :
    Alongside B (List.Forall₂ (SelectColumn.Like P)) (selectList c) (selectList c') := by
  unfold selectList
  rcases T.accept? hb .star (by decide) with
    ⟨hx, hy⟩ | ⟨t, c₁, h₁, t', c₁', h₁', hx, hy, _, hb₁⟩
  · rw [hx, hy]
    exact h.selectColumns hb (by omega)
  · rw [hx, hy]
    exact .ok .nil hb₁

omit L in
theorem groupClause_alongside (hb : B c c') (h : AlongsideBelow B R P Q (16 * c.length)) :
    Alongside B (List.Forall₂ P) (groupClause c) (groupClause c') := by
  unfold groupClause
  rcases T.accept? hb (.keyword .group) (by decide) with
    ⟨hx, hy⟩ | ⟨t, c₁, h₁, t', c₁', h₁', hx, hy, _, hb₁⟩
  · rw [hx, hy]
    exact .ok .nil hb
  · rw [hx, hy]
    refine (alongside_take T hb₁ (by decide) _).bind fun _ _ c₂ c₂' h₂ h₂' _ hb₂ => ?_
    exact (h.expressions hb₂ (by omega)).bind fun _ _ _ _ _ _ hkeys hb₃ => .ok hkeys hb₃

omit L in
theorem tableRef_alongside (hb : B c c') (h : AlongsideBelow B R P Q (16 * c.length)) :
    Alongside B (TableRef.Like R Q) (tableRef c) (tableRef c') := by
  unfold tableRef
  have hf := T c c' hb
  cases hf with
  | empty => exact .error (.unexpected "") hb
  | @stop t t' rest rest' hk hk' =>
    have hnot {kind : TokenKind} (hs : kind.isStop = true) :
        kind ≠ .identifier ∧ kind ≠ .leftParen :=
      ⟨TokenKind.ne_of_isStop hs rfl, TokenKind.ne_of_isStop hs rfl⟩
    simp only [if_neg (hnot hk).1, if_neg (hnot hk').1, (hnot hk).2, (hnot hk').2, false_and,
      if_false]
    exact .error (.unexpected _) hb
  | @like t t' rest rest' ht hr =>
    rw [List.length_cons] at h
    simp only [ht.kind, T.at? hr (.keyword .select) (by decide)]
    split
    · refine (label_alongside T hr).bind fun _ _ _ _ _ _ hn hb₁ => .ok ⟨ht.pos, ?_, hn⟩ hb₁
      dsimp only
      rw [ht.lexeme]
      exact .table _
    · split
      · refine (h.select hr (by omega)).bind fun query query' c₁ c₁' h₁ h₁' hq hb₁ => ?_
        refine (alongside_take T hb₁ (by decide) _).bind fun _ _ c₂ c₂' h₂ h₂' _ hb₂ => ?_
        refine (label_alongside T hb₂).bind fun _ _ _ _ _ _ hn hb₃ => ?_
        exact .ok ⟨ht.pos, .subquery hq, hn⟩ hb₃
      · exact .error (.unexpected _) hb

omit L in
theorem joinList_alongside (hb : B c c') (h : AlongsideBelow B R P Q (16 * c.length)) :
    Alongside B (List.Forall₂ (Join.Like R P Q)) (joinList c) (joinList c') := by
  unfold joinList
  have hf := T c c' hb
  cases hf with
  | empty => exact .ok .nil hb
  | stop hk hk' =>
    simp only [joinStart?_stop hk, joinStart?_stop hk']
    exact .ok .nil hb
  | @like t t' rest rest' ht hr =>
    rw [List.length_cons] at h
    simp only [ht.kind]
    split
    · exact .ok .nil hb
    · next kind needsJoin hk =>
      refine (joinWords_alongside T ht.lexeme kind needsJoin hr).bind
        fun _ _ c₁ c₁' h₁ h₁' _ hb₁ => ?_
      refine (h.tableRef hb₁ (by omega)).bind fun table table' c₂ c₂' h₂ h₂' htable hb₂ => ?_
      refine (h.onClause kind hb₂ (by omega)).bind
        fun condition condition' c₃ c₃' h₃ h₃' hcondition hb₃ => ?_
      refine (h.joinList hb₃ (by omega)).bind fun _ _ _ _ _ _ hjoins hb₄ => ?_
      exact .ok (.cons ⟨ht.pos, rfl, htable, hcondition⟩ hjoins) hb₄

omit T L in
theorem onClause_alongside (kind : JoinKind) (hb : B c c')
    (h : AlongsideBelow B R P Q (16 * c.length + 1)) :
    Alongside B (Option.Rel P) (onClause kind c) (onClause kind c') := by
  unfold onClause
  split
  · exact .ok .none hb
  · exact h.clause .on hb (by omega)

/-- By induction on the measure all rules go side by side. -/
theorem alongsideBelow (n : Nat) : AlongsideBelow B R P Q n := by
  induction n using Nat.strongRecOn with
  | ind n ih =>
    exact
      { chain := fun level _ _ hb hn => chain_alongside level hb (ih _ hn)
        chainRest := fun level _ _ _ _ hl hb hn => chainRest_alongside T L level hl hb (ih _ hn)
        signed := fun hb hn => signed_alongside T L hb (ih _ hn)
        tested := fun hb hn => tested_alongside T L hb (ih _ hn)
        test := fun hs hb hn => test_alongside T L hs hb (ih _ hn)
        members := fun hb hn => members_alongside T L hb (ih _ hn)
        called := fun hb hn => called_alongside hb (ih _ hn)
        callRest := fun hc hb hn => callRest_alongside T L hc hb (ih _ hn)
        arguments := fun hb hn => arguments_alongside T hb (ih _ hn)
        primary := fun hb hn => primary_alongside T L hb (ih _ hn)
        branches := fun hb hn => branches_alongside T hb (ih _ hn)
        expressions := fun hb hn => expressions_alongside T hb (ih _ hn)
        clause := fun k _ _ hb hn => clause_alongside T k hb (ih _ hn)
        select := fun hb hn => select_alongside T L hb (ih _ hn)
        selectList := fun hb hn => selectList_alongside T hb (ih _ hn)
        selectColumns := fun hb hn => selectColumns_alongside T hb (ih _ hn)
        groupClause := fun hb hn => groupClause_alongside T hb (ih _ hn)
        tableRef := fun hb hn => tableRef_alongside T hb (ih _ hn)
        joinList := fun hb hn => joinList_alongside T hb (ih _ hn)
        onClause := fun kind _ _ hb hn => onClause_alongside kind hb (ih _ hn) }

/-- Whole queries are read alike. -/
theorem query_alongside (hb : B c c') : Alongside B Q (select c) (select c') :=
  (alongsideBelow T L (16 * c.length + 1)).select hb (Nat.lt_succ_self _)

end

end Grammar

end TableQuery
