import TableQuery.Proofs.Query.Written
import TableQuery.Proofs.Query.Yields

/-! # Reading what has been written

The tokens written for a tree are read as this tree again. What is written for an expression is
followed by other tokens, and where the expression ends depends on how tightly the first of these
holds on to it: an operator of the level of the expression goes on with it, and nothing tighter may
follow. Only a sum at the end of a test is open to operators tighter than the test. -/

namespace TableQuery

open Parsed Grammar

/-! ## What goes on with an expression -/

/-- One more than the level of the expressions that the token goes on with, none for tokens that no
expression goes on with. Behind an identifier, a point goes on with the name. -/
def TokenKind.grip : TokenKind → Nat
  | .keyword .or => 1
  | .keyword .and => 2
  | .equal | .notEqual => 3
  | .less | .lessEqual | .greater | .greaterEqual => 4
  | .plus | .minus => 5
  | .star | .slash | .percent => 6
  | .keyword .is => 8
  | .keyword .not | .keyword .in | .keyword .between | .keyword .like | .keyword .ilike => 9
  | .leftParen => 9
  | .dot => 11
  | _ => 0

/-- The order in which clauses come behind the columns of a query: a token of a later clause does
not belong to an earlier one, and all of them end expressions and lists. -/
def TokenKind.stage : TokenKind → Nat
  | .keyword .from | .keyword .on => 1
  | .keyword .join | .keyword .inner | .keyword .left | .keyword .right | .keyword .full
  | .keyword .cross => 2
  | .keyword .where => 3
  | .keyword .group => 4
  | .keyword .having => 5
  | .keyword .order => 6
  | .keyword .limit => 7
  | .keyword .offset => 8
  | .rightParen | .endOfText => 9
  | _ => 0

theorem TokenKind.grip_of_stage {kind : TokenKind} (h : 0 < kind.stage) : kind.grip = 0 := by
  cases kind with
  | keyword k => cases k <;> first | rfl | exact absurd h (by decide)
  | _ => first | rfl | exact absurd h (by decide)

namespace Cursor

def grip : Cursor → Nat
  | [] => 0
  | t :: _ => t.kind.grip

def stage : Cursor → Nat
  | [] => 0
  | t :: _ => t.kind.stage

variable {c : Cursor} {kind : TokenKind}

@[simp] theorem grip_cons (t : Token) (rest : Cursor) : grip (t :: rest) = t.kind.grip := rfl

@[simp] theorem stage_cons (t : Token) (rest : Cursor) : stage (t :: rest) = t.kind.stage := rfl

theorem grip_of_stage (h : 0 < c.stage) : c.grip = 0 := by
  cases c with
  | nil => rfl
  | cons t rest => exact TokenKind.grip_of_stage h

/-- Tokens that hold on less tightly, or more, are other ones. -/
theorem accept?_of_grip (h : c.grip ≠ kind.grip) : c.accept? kind = none := by
  refine accept?_eq_none fun t ht hk => h ?_
  cases c with
  | nil => cases ht
  | cons first rest =>
    cases ht
    rw [grip_cons, hk]

theorem accept?_of_stage (h : kind.stage < c.stage) : c.accept? kind = none := by
  refine accept?_eq_none fun t ht hk => ?_
  cases c with
  | nil => cases ht
  | cons first rest =>
    cases ht
    rw [stage_cons, hk] at h
    exact Nat.lt_irrefl _ h

end Cursor

namespace Grammar

variable {c r rest : Cursor} {t : Token} {level : Nat} {e out left right : Expr}

theorem grip_of_operatorNode? {kind : TokenKind} {node : Position → Expr → Expr → Expr}
    (h : operatorNode? level kind = some node) : kind.grip = level + 1 := by
  unfold operatorNode? at h
  split at h <;> first | rfl | cases h

theorem chainRest_loose (h : r.grip ≠ level + 1) : Yields (chainRest level e r) e r := by
  refine chainRest_stop fun t ht => ?_
  cases r with
  | nil => cases ht
  | cons first rest =>
    cases ht
    cases hn : operatorNode? level t.kind with
    | none => rfl
    | some node => exact absurd (grip_of_operatorNode? hn) h

/-! ## Levels -/

/-- The rule of a level. -/
def rule (level : Nat) (c : Cursor) : Parsed Expr c.length :=
  if level < levels then chain level c
  else if level = signLevel then signed c
  else if level = testLevel then tested c
  else if level = callLevel then called c
  else primary c

/-- How the rule of a level goes on behind an expression. -/
def loop (level : Nat) (left : Expr) (c : Cursor) : Parsed Expr (c.length + 1) :=
  if level < levels then chainRest level left c
  else if level = testLevel then nullTests left c
  else if level = callLevel then callRest left c
  else .ok ⟨left, c, c.length_lt_succ⟩

theorem rule_eq_chain (h : level ≤ levels) : rule level c = chain level c := by
  unfold rule
  rcases Nat.eq_or_lt_of_le h with rfl | hlt
  · exact chain_levels.symm
  · exact if_pos hlt

theorem rule_eq_primary (h : primaryLevel ≤ level) : rule level c = primary c := by
  simp only [primaryLevel] at h
  unfold rule
  rw [if_neg (by simp only [levels]; omega), if_neg (by simp only [signLevel, levels]; omega),
    if_neg (by simp only [testLevel]; omega), if_neg (by simp only [callLevel]; omega)]

theorem loop_eq_ok (h : primaryLevel ≤ level) :
    loop level e c = .ok ⟨e, c, c.length_lt_succ⟩ := by
  simp only [primaryLevel] at h
  unfold loop
  rw [if_neg (by simp only [levels]; omega), if_neg (by simp only [testLevel]; omega),
    if_neg (by simp only [callLevel]; omega)]

/-- The loop of a level ends where tighter or looser tokens follow. -/
theorem loop_stop (h : r.grip ≤ level) : Yields (loop level e r) e r := by
  unfold loop
  split
  · exact chainRest_loose (by omega)
  · split
    · next hl =>
      have hne : r.grip ≠ TokenKind.grip (.keyword .is) := by
        simp only [testLevel] at hl
        simp only [TokenKind.grip]
        omega
      exact nullTests_stop (Cursor.accept?_of_grip hne)
    · split
      · next hl =>
        have hne : r.grip ≠ TokenKind.grip .leftParen := by
          simp only [callLevel] at hl
          simp only [TokenKind.grip]
          omega
        exact callRest_stop (Cursor.accept?_of_grip hne)
      · exact yields_ok _

theorem test?_eq_none {subject : Expr} (h : r.grip ≠ 9) : test? subject r = none := by
  cases r with
  | nil => simp [test?]
  | cons t rest =>
    unfold test?
    dsimp only
    split <;> first | rfl | (next hk => exact absurd (by rw [Cursor.grip_cons, hk]; rfl) h)

/-! ## Expressions -/

/-- The kinds of tokens that no written expression begins with, though some rules do. -/
def closers : List TokenKind := [.keyword .select, .keyword .distinct, .rightParen, .star]

/-- The first token is one that a written expression may begin with. -/
def Starts (tokens : List Token) : Prop := ∃ t ts, tokens = t :: ts ∧ t.kind ∉ closers

/-- The tokens written for an expression are read as the expression by the rule of the level, with
whatever the level goes on with behind them. If the expression is a test, its opposite is read as
the opposite. -/
structure Rereads (level : Nat) (e : Expr) : Prop where
  reads : ∀ {r : Cursor} {out : Expr} {rest : Cursor}, r.grip ≤ level + 1 →
    (e.endsInSum = true → r.grip ≤ sumLevel) → Yields (loop level e.unplaced r) out rest →
      Yields (rule level (e.written false ++ r)) out rest
  refused : e.isTest = true → ∀ {r : Cursor} {out : Expr} {rest : Cursor},
    r.grip ≤ testLevel + 1 → (e.endsInSum = true → r.grip ≤ sumLevel) →
      Yields (nullTests (.not .start e.unplaced) r) out rest →
        Yields (tested (e.written true ++ r)) out rest
  starts : ∀ refused, Starts (e.written refused)
  closed : callLevel ≤ level → e.endsInSum = false

theorem Starts.append {tokens : List Token} (h : Starts tokens) (more : List Token) :
    Starts (tokens ++ more) := by
  obtain ⟨t, ts, rfl, ht⟩ := h
  exact ⟨t, ts ++ more, rfl, ht⟩

theorem Starts.accept? {tokens : List Token} {kind : TokenKind} (h : Starts tokens)
    (hk : kind ∈ closers) : Cursor.accept? tokens kind = none := by
  obtain ⟨t, ts, rfl, ht⟩ := h
  refine if_neg fun he => ht ?_
  rw [he]
  exact hk

theorem starts_cons {t : Token} (h : t.kind ∉ closers) (ts : List Token) : Starts (t :: ts) :=
  ⟨t, ts, rfl, h⟩

namespace Rereads

theorem stop (h : Rereads level e) (hr : r.grip ≤ level)
    (hs : e.endsInSum = true → r.grip ≤ sumLevel) :
    Yields (rule level (e.written false ++ r)) e.unplaced r :=
  h.reads (Nat.le_succ_of_le hr) hs (loop_stop hr)

theorem whole (h : Rereads 0 e) (hr : r.grip = 0) :
    Yields (chain 0 (e.written false ++ r)) e.unplaced r := by
  rw [← rule_eq_chain (Nat.zero_le levels)]
  exact h.stop (Nat.le_of_eq hr) fun _ => by rw [hr]; exact Nat.zero_le _

theorem sum (h : Rereads sumLevel e) (hr : r.grip ≤ sumLevel) :
    Yields (chain sumLevel (e.written false ++ r)) e.unplaced r := by
  rw [← rule_eq_chain (by decide)]
  exact h.stop hr fun _ => hr

theorem called (h : Rereads callLevel e) (hr : r.grip ≤ 9) (hl : r.accept? .leftParen = none) :
    Yields (called (e.written false ++ r)) e.unplaced r := by
  have hclosed := h.closed (Nat.le_refl _)
  have hloop : Yields (loop callLevel e.unplaced r) e.unplaced r := callRest_stop hl
  exact h.reads hr (fun hopen => absurd (hclosed.symm.trans hopen) (by decide)) hloop

/-- The rule of a level reads what the tighter one does and goes on from there. -/
theorem loosen (h : Rereads (level + 1) e) : Rereads level e where
  reads {r out rest} hr hs hloop := by
    have hstop := h.stop hr hs
    rcases Nat.lt_or_ge level levels with hl | hl
    · rw [rule_eq_chain (Nat.le_of_lt hl)]
      rw [rule_eq_chain hl] at hstop
      have hchain : Yields (chainRest level e.unplaced r) out rest := by
        unfold loop at hloop
        rwa [if_pos hl] at hloop
      exact chain_yields hl hstop hchain
    · obtain rfl | rfl | rfl | hl : level = 6 ∨ level = 7 ∨ level = 8 ∨ 9 ≤ level := by
        simp only [levels] at hl
        omega
      · obtain ⟨_, hout⟩ := hloop
        cases hout
        exact signed_tested hstop
      · have hnot : r.accept? (.keyword .not) = none :=
          Cursor.accept?_of_grip (by simp only [TokenKind.grip]; omega)
        exact tested_plain hstop hnot (test?_eq_none (by omega)) hloop
      · exact called_yields hstop hloop
      · rw [loop_eq_ok hl] at hloop
        obtain ⟨_, hout⟩ := hloop
        cases hout
        rw [rule_eq_primary (Nat.le_succ_of_le hl)] at hstop
        rwa [rule_eq_primary hl]
  refused := h.refused
  starts := h.starts
  closed hl := h.closed (Nat.le_succ_of_le hl)

/-- An expression that is no test and is read as it is by a rule without loop. -/
theorem of_stop (hl : level = signLevel ∨ level = primaryLevel)
    (h : ∀ {r : Cursor}, r.grip ≤ level + 1 → (e.endsInSum = true → r.grip ≤ sumLevel) →
      Yields (rule level (e.written false ++ r)) e.unplaced r)
    (htest : e.isTest = false) (hs : ∀ refused, Starts (e.written refused))
    (hc : callLevel ≤ level → e.endsInSum = false) : Rereads level e where
  reads {r out rest} hr hsum hloop := by
    have hok : loop level e.unplaced r = .ok ⟨e.unplaced, r, r.length_lt_succ⟩ := by
      rcases hl with rfl | rfl
      · rfl
      · exact loop_eq_ok (Nat.le_refl _)
    rw [hok] at hloop
    obtain ⟨_, hout⟩ := hloop
    cases hout
    exact h hr hsum
  refused ht := absurd (htest.symm.trans ht) (by decide)
  starts := hs
  closed := hc

end Rereads

/-- The token and the node of an operator. -/
theorem written_node {kind : TokenKind} {node : Position → Expr → Expr → Expr}
    (h : operatorNode? level kind = some node) :
    ∃ t : Token, t.kind = kind ∧ t.pos = .start ∧ ∀ pos left right,
      (∀ refused, (node pos left right).written refused =
        left.written false ++ t :: right.written false) ∧
      (node pos left right).unplaced = node .start left.unplaced right.unplaced ∧
      (node pos left right).isTest = false := by
  unfold operatorNode? at h
  split at h <;> cases h
  case h_1 => exact ⟨.ofConnective .or, rfl, rfl, fun _ _ _ => ⟨fun _ => rfl, rfl, rfl⟩⟩
  case h_2 => exact ⟨.ofConnective .and, rfl, rfl, fun _ _ _ => ⟨fun _ => rfl, rfl, rfl⟩⟩
  case h_3 => exact ⟨.ofOperator .equal, rfl, rfl, fun _ _ _ => ⟨fun _ => rfl, rfl, rfl⟩⟩
  case h_4 => exact ⟨.ofOperator .notEqual, rfl, rfl, fun _ _ _ => ⟨fun _ => rfl, rfl, rfl⟩⟩
  case h_5 => exact ⟨.ofOperator .less, rfl, rfl, fun _ _ _ => ⟨fun _ => rfl, rfl, rfl⟩⟩
  case h_6 => exact ⟨.ofOperator .lessOrEqual, rfl, rfl, fun _ _ _ => ⟨fun _ => rfl, rfl, rfl⟩⟩
  case h_7 => exact ⟨.ofOperator .greater, rfl, rfl, fun _ _ _ => ⟨fun _ => rfl, rfl, rfl⟩⟩
  case h_8 => exact ⟨.ofOperator .greaterOrEqual, rfl, rfl, fun _ _ _ => ⟨fun _ => rfl, rfl, rfl⟩⟩
  case h_9 => exact ⟨.ofOperator .plus, rfl, rfl, fun _ _ _ => ⟨fun _ => rfl, rfl, rfl⟩⟩
  case h_10 => exact ⟨.ofOperator .minus, rfl, rfl, fun _ _ _ => ⟨fun _ => rfl, rfl, rfl⟩⟩
  case h_11 => exact ⟨.ofOperator .times, rfl, rfl, fun _ _ _ => ⟨fun _ => rfl, rfl, rfl⟩⟩
  case h_12 => exact ⟨.ofOperator .divide, rfl, rfl, fun _ _ _ => ⟨fun _ => rfl, rfl, rfl⟩⟩
  case h_13 => exact ⟨.ofOperator .modulo, rfl, rfl, fun _ _ _ => ⟨fun _ => rfl, rfl, rfl⟩⟩

theorem rereads_node {kind : TokenKind} {node : Position → Expr → Expr → Expr} (pos : Position)
    (hn : operatorNode? level kind = some node) (hsum : left.endsInSum = true → level < sumLevel)
    (hl : Rereads level left) (hr : Rereads (level + 1) right) :
    Rereads level (node pos left right) := by
  obtain ⟨t, hkind, hpos, ht⟩ := written_node hn
  obtain ⟨hwritten, hunplaced, htest⟩ := ht pos left right
  have hlevel : level < levels := by
    refine Nat.lt_of_not_le fun h => ?_
    rw [operatorNode?_eq_none h] at hn
    cases hn
  have hgrip : t.kind.grip = level + 1 := hkind ▸ grip_of_operatorNode? hn
  refine ⟨fun {r out rest} hgo hopen hloop => ?_, fun h => absurd (htest.symm.trans h) (by decide),
    fun refused => hwritten refused ▸ (hl.starts false).append _, fun hcall => ?_⟩
  · rw [endsInSum_node hn] at hopen
    -- the left operand ends where the operator stands, which is part of the loop of the level
    have hright := hr.stop hgo hopen
    rw [rule_eq_chain hlevel] at hright
    rw [hwritten, List.append_assoc, List.cons_append]
    refine hl.reads (by simp [hgrip]) (fun h => ?_) ?_
    · simp only [Cursor.grip_cons, hgrip]
      exact hsum h
    · unfold loop at hloop ⊢
      rw [if_pos hlevel, hunplaced] at hloop
      rw [if_pos hlevel]
      exact chainRest_operator (hkind ▸ hn) hright (hpos ▸ hloop)
  · exact absurd hlevel (by simp only [callLevel, levels] at *; omega)

/-- A test behind a `not` is written as its opposite, which the rule for tests reads. -/
theorem rereads_not {operand : Expr} (pos : Position) (h : Rereads signLevel operand) :
    Rereads signLevel (.not pos operand) := by
  cases ht : operand.isTest with
  | true =>
    have hw : ∀ refused, (Expr.not pos operand).written refused = operand.written true :=
      fun _ => if_pos ht
    refine .of_stop (.inl rfl) (fun {r} hr hs => ?_) rfl (fun refused => ?_) fun hcall =>
      absurd hcall (by decide)
    · have hstop : Yields (nullTests (.not .start operand.unplaced) r)
          (.not .start operand.unplaced) r := by
        refine nullTests_stop (Cursor.accept?_of_grip ?_)
        simp only [TokenKind.grip, signLevel, levels] at *
        omega
      rw [hw]
      exact signed_tested (h.refused ht (Nat.le_succ_of_le hr) hs hstop)
    · rw [hw]
      exact h.starts true
  | false =>
    have hw : ∀ refused, (Expr.not pos operand).written refused =
        .word .not :: operand.written false := fun _ => if_neg (by simp [ht])
    refine .of_stop (.inl rfl) (fun {r} hr hs => ?_) rfl (fun refused => ?_) fun hcall =>
      absurd hcall (by decide)
    · rw [hw]
      exact signed_not rfl (h.reads hr hs (yields_ok _))
    · rw [hw]
      exact starts_cons (by decide) _

theorem rereads_negate {operand : Expr} (pos : Position) (h : Rereads signLevel operand) :
    Rereads signLevel (.negate pos operand) := by
  refine .of_stop (.inl rfl) (fun {r} hr hs => ?_) rfl (fun refused => ?_) fun hcall =>
    absurd hcall (by decide)
  · exact signed_negate rfl (h.reads hr hs (yields_ok _))
  · exact starts_cons (by decide) _

/-! ## Tests -/

/-- A test with one word between its subject and the rest. -/
theorem rereads_test {subject test : Expr} {t : Token} {tail : List Token}
    (hs : Rereads callLevel subject)
    (hw : ∀ refused, test.written refused =
      subject.written false ++ (Token.refusal refused ++ t :: tail))
    (ht : t.kind ∈ [TokenKind.keyword .in, .keyword .between, .keyword .like, .keyword .ilike])
    (h : ∀ {r : Cursor}, r.grip ≤ testLevel + 1 → (test.endsInSum = true → r.grip ≤ sumLevel) →
      TestYields subject.unplaced (t :: (tail ++ r)) test.unplaced r) : Rereads testLevel test := by
  have hword : t.kind.grip = 9 ∧ t.kind ≠ .leftParen ∧ t.kind ≠ .keyword .not := by
    generalize t.kind = kind at ht
    revert kind
    decide
  obtain ⟨hgrip, hparen, hnot⟩ := hword
  refine ⟨fun {r out rest} hr hsum hloop => ?_, fun _ r out rest hr hsum hloop => ?_,
    fun refused => hw refused ▸ (hs.starts false).append _, fun hcall => absurd hcall (by decide)⟩
  · rw [hw, List.append_assoc]
    have hsubject := hs.called (r := t :: (tail ++ r)) (by simp [hgrip])
      (Cursor.accept?_other _ hparen)
    exact tested_test hsubject (Cursor.accept?_other _ hnot) (h hr hsum) hloop
  · rw [hw, List.append_assoc]
    have hsubject := hs.called (r := Token.word .not :: t :: (tail ++ r)) (Nat.le_refl 9)
      (Cursor.accept?_other _ (by decide))
    exact tested_refused hsubject rfl (h hr hsum) hloop

theorem rereads_isNull {subject : Expr} (pos : Position) (hc : subject.endsInSum = false)
    (h : Rereads testLevel subject) : Rereads testLevel (.isNull pos subject) := by
  have hopen : ∀ r : Cursor, subject.endsInSum = true → r.grip ≤ sumLevel := fun _ ho =>
    absurd (hc.symm.trans ho) (by decide)
  have hw : ∀ refused (r : Cursor), (Expr.isNull pos subject).written refused ++ r =
      subject.written false ++ .word .is :: (Token.refusal refused ++ .word .null :: r) := by
    simp [Expr.written_isNull]
  have his : ∀ r : Cursor, Cursor.grip (.word .is :: r) ≤ testLevel + 1 := fun _ =>
    Nat.le_refl 8
  refine ⟨fun {r out rest} hr hsum hloop => ?_, fun _ r out rest hr hsum hloop => ?_,
    fun refused => (h.starts false).append _, fun hcall => absurd hcall (by decide)⟩
  · rw [hw]
    have htest : Yields (nullTests (.isNull .start subject.unplaced) r) out rest := hloop
    exact h.reads (his _) (hopen _) (nullTests_null rfl rfl htest)
  · rw [hw]
    have htest : Yields (nullTests (.not .start (.isNull .start subject.unplaced)) r) out rest :=
      hloop
    exact h.reads (his _) (hopen _) (nullTests_notNull rfl rfl rfl htest)

/-- The opposite of a test is read by the rule that has built it. -/
theorem rereads_refused {test : Expr} (pos : Position) (ht : test.isTest = true)
    (h : Rereads testLevel test) : Rereads testLevel (.not pos test) := by
  have hw : ∀ refused, (Expr.not pos test).written refused = test.written true :=
    fun _ => if_pos ht
  refine ⟨fun {r out rest} hr hsum hloop => ?_, fun hn => (by cases hn),
    fun refused => hw refused ▸ h.starts true, fun hcall => absurd hcall (by decide)⟩
  rw [hw]
  exact h.refused ht hr hsum hloop

/-! ## Lists -/

/-- Any items written with commas between them are read by a rule that reads one item, and more
behind a comma. -/
theorem withCommas_yields {α β : Type} {list : (c : Cursor) → Parsed (List β) c.length}
    {tokens : α → List Token} {value : α → β} {as : List α} (hne : as ≠ [])
    (hlast : ∀ a ∈ as, ∀ {r : Cursor}, 0 < r.stage → Yields (list (tokens a ++ r)) [value a] r)
    (hmore : ∀ a ∈ as, ∀ {r rest : Cursor} {bs : List β}, Yields (list r) bs rest →
      Yields (list (tokens a ++ Token.symbol .comma "," :: r)) (value a :: bs) rest)
    {r : Cursor} (hr : 0 < r.stage) :
    Yields (list (Token.withCommas (as.map tokens) ++ r)) (as.map value) r := by
  induction as with
  | nil => exact absurd rfl hne
  | cons a as ih =>
    cases as with
    | nil =>
      rw [List.map_singleton, Token.withCommas_singleton]
      exact hlast a List.mem_cons_self hr
    | cons b as =>
      have hrest := ih (by simp) (fun a ha => hlast a (List.mem_cons_of_mem _ ha))
        (fun a ha => hmore a (List.mem_cons_of_mem _ ha))
      rw [List.map_cons, List.map_cons, Token.withCommas_cons, List.append_assoc]
      exact hmore a List.mem_cons_self hrest

theorem expressions_written {es : List Expr} (hne : es ≠ []) (h : ∀ e ∈ es, Rereads 0 e)
    (hr : 0 < r.stage) :
    Yields (expressions (Token.withCommas (es.map (·.written false)) ++ r))
      (es.map (·.unplaced)) r := by
  refine withCommas_yields hne (fun e he r hr => ?_) (fun e he r rest es' hes => ?_) hr
  · exact expressions_last ((h e he).whole (Cursor.grip_of_stage hr)) (Cursor.accept?_of_stage hr)
  · exact expressions_more ((h e he).whole rfl) rfl hes

theorem starts_withCommas {α : Type} {tokens : α → List Token} {as : List α} (hne : as ≠ [])
    (h : ∀ a ∈ as, Starts (tokens a)) : Starts (Token.withCommas (as.map tokens)) := by
  cases as with
  | nil => exact absurd rfl hne
  | cons a as =>
    have hstarts := h a List.mem_cons_self
    cases as with
    | nil =>
      rw [List.map_singleton, Token.withCommas_singleton]
      exact hstarts
    | cons b as =>
      rw [List.map_cons, List.map_cons, Token.withCommas_cons]
      exact hstarts.append _

theorem starts_expressions {es : List Expr} (hne : es ≠ []) (h : ∀ e ∈ es, Rereads 0 e) :
    Starts (Token.withCommas (es.map (·.written false))) :=
  starts_withCommas hne fun e he => (h e he).starts false

/-! ## Tests -/

section

variable {subject low high pattern : Expr} (pos : Position) (hs : Rereads callLevel subject)

include hs

theorem rereads_member {items : List Expr} (hne : items ≠ []) (h : ∀ e ∈ items, Rereads 0 e) :
    Rereads testLevel (.member pos subject items) := by
  refine rereads_test (t := .word .in) hs (fun _ => rfl) (by decide) fun {r} _ _ => ?_
  have hstarts := (starts_expressions hne h).append (.symbol .rightParen ")" :: r)
  have hitems := expressions_written (r := .symbol .rightParen ")" :: r) hne h
    (Nat.succ_pos 8)
  rw [Token.inParens_append, writtenEach_eq, Expr.unplaced, unplacedEach_eq]
  exact test_member rfl (members_yields rfl (hstarts.accept? (by decide))
    (hstarts.accept? (by decide)) hitems rfl)

theorem rereads_between (hl : Rereads sumLevel low) (hh : Rereads sumLevel high) :
    Rereads testLevel (.between pos subject low high) := by
  refine rereads_test (t := .word .between) hs (fun _ => rfl) (by decide) fun {r} _ hsum => ?_
  have hlow := hl.sum (r := .word .and :: (high.written false ++ r))
    (show 2 ≤ sumLevel by decide)
  rw [List.append_assoc]
  exact test_between rfl hlow rfl (hh.sum (hsum rfl))

theorem rereads_like (ignoreCase : Bool) (hp : Rereads sumLevel pattern) :
    Rereads testLevel (.like pos subject pattern ignoreCase) := by
  refine rereads_test (t := .word (if ignoreCase then .ilike else .like)) hs (fun _ => rfl)
    (by cases ignoreCase <;> decide) fun {r} _ hsum => ?_
  exact test_like rfl (hp.sum (hsum rfl))

end

/-! ## Calls and primary forms -/

theorem arguments_written {args : List Expr} {star : Bool} (hstar : star = true → args = [])
    (h : ∀ e ∈ args, Rereads 0 e) (r : Cursor) :
    Yields (arguments (Token.listing star (args.map (·.written false)) ++
      .symbol .rightParen ")" :: r)) (args.map (·.unplaced), star)
      (.symbol .rightParen ")" :: r) := by
  cases star with
  | true =>
    cases hstar rfl
    exact arguments_star rfl
  | false =>
    cases args with
    | nil => exact arguments_none rfl
    | cons e es =>
      have hne : e :: es ≠ [] := by simp
      have hstarts := (starts_expressions hne h).append (.symbol .rightParen ")" :: r)
      exact arguments_list (hstarts.accept? (by decide)) (hstarts.accept? (by decide))
        (expressions_written hne h (Nat.succ_pos 8))

theorem rereads_call {callee : Expr} {args : List Expr} {star : Bool} (pos : Position)
    (hstar : star = true → args = []) (hc : Rereads callLevel callee)
    (h : ∀ e ∈ args, Rereads 0 e) : Rereads callLevel (.call pos callee args star) := by
  have hclosed := hc.closed (Nat.le_refl _)
  refine ⟨fun {r out rest} hr _ hloop => ?_, fun ht => (by cases ht),
    fun refused => (hc.starts false).append _, fun _ => rfl⟩
  have hargs := arguments_written hstar h r
  rw [Expr.unplaced, unplacedEach_eq] at hloop
  rw [Expr.written_call, writtenEach_eq, List.append_assoc, Token.inParens_append]
  refine hc.reads (Nat.le_refl 9) (fun hopen => absurd (hclosed.symm.trans hopen) (by decide)) ?_
  exact callRest_call rfl hargs rfl hloop

/-- An expression that begins and ends by itself. -/
theorem rereads_primary (hread : ∀ {r : Cursor}, r.grip ≤ primaryLevel + 1 →
      Yields (primary (e.written false ++ r)) e.unplaced r)
    (htest : e.isTest = false) (hs : ∀ refused, Starts (e.written refused))
    (hc : e.endsInSum = false) : Rereads primaryLevel e := by
  refine .of_stop (.inr rfl) (fun {r} hr _ => ?_) htest hs fun _ => hc
  rw [rule_eq_primary (Nat.le_refl _)]
  exact hread hr

theorem rereads_literal (pos : Position) (v : Value) :
    Rereads primaryLevel (.literal pos v) := by
  have hkind : (Token.ofValue v).kind ∈ literalKinds ∧ (Token.ofValue v).kind ∉ closers := by
    cases v with
    | boolean b => cases b <;> decide
    | _ => constructor <;> simp [Token.ofValue, Token.word, Token.symbol, literalKinds, closers]
  have hvalue : (Token.ofValue v).literal.getD .null = v ∧ (Token.ofValue v).pos = .start := by
    cases v with
    | boolean b => cases b <;> exact ⟨rfl, rfl⟩
    | _ => exact ⟨rfl, rfl⟩
  refine rereads_primary (fun {r} _ => ?_) rfl (fun _ => starts_cons hkind.2 _) rfl
  have h : Yields (primary (Token.ofValue v :: r)) _ r := primary_literal hkind.1
  rwa [hvalue.1, hvalue.2] at h

theorem columnRef_written (ref : ColumnRef) (hr : r.accept? .dot = none) :
    Yields (columnRef (ref.written ++ r)) ref.unplaced r := by
  obtain ⟨pos, table, name⟩ := ref
  cases table with
  | none => exact columnRef_plain rfl hr
  | some table => exact columnRef_qualified rfl rfl rfl

theorem starts_columnRef (ref : ColumnRef) :
    ∃ t ts, ref.written = t :: ts ∧ t.kind = .identifier := by
  obtain ⟨pos, table, name⟩ := ref
  cases table with
  | none => exact ⟨_, _, rfl, rfl⟩
  | some table => exact ⟨_, _, rfl, rfl⟩

theorem rereads_column (ref : ColumnRef) : Rereads primaryLevel (.column ref) := by
  obtain ⟨t, ts, ht, hkind⟩ := starts_columnRef ref
  refine rereads_primary (fun {r} hr => ?_) rfl (fun refused => ?_) rfl
  · have hdot : r.accept? .dot = none := by
      refine Cursor.accept?_of_grip ?_
      simp only [primaryLevel, TokenKind.grip] at *
      omega
    have href := columnRef_written ref hdot
    rw [ht] at href
    rw [Expr.written_column, ht]
    exact primary_column hkind href
  · rw [Expr.written_column, ht]
    exact starts_cons (by rw [hkind]; decide) _

theorem rereads_group {inner : Expr} (pos : Position) (h : Rereads 0 inner) :
    Rereads primaryLevel (.group pos inner) := by
  refine rereads_primary (fun {r} _ => ?_) rfl (fun _ => starts_cons (by decide) _) rfl
  rw [Expr.written_group, Token.inParens_append]
  exact primary_group rfl (((h.starts false).append _).accept? (by decide)) (h.whole rfl) rfl

/-- What is written for the query is read as the query where a bracket closes or the text ends. -/
def QueryRereads (query : Select) : Prop :=
  ∀ {r : Cursor}, r.stage = 9 → Yields (select (query.written ++ r)) query.unplaced r

theorem written_cons (query : Select) : ∃ ts, query.written = .word .select :: ts := by
  cases query
  exact ⟨_, rfl⟩

theorem rereads_existence {query : Select} (pos : Position) (h : QueryRereads query) :
    Rereads primaryLevel (.existence pos query) := by
  refine rereads_primary (fun {r} _ => ?_) rfl (fun _ => starts_cons (by decide) _) rfl
  rw [Expr.written_existence, List.cons_append, Token.inParens_append]
  exact primary_existence rfl rfl (h rfl) rfl

theorem rereads_subquery {query : Select} (h : QueryRereads query) :
    Rereads primaryLevel (.subquery query) := by
  refine rereads_primary (fun {r} _ => ?_) rfl (fun _ => starts_cons (by decide) _) rfl
  obtain ⟨ts, hts⟩ := written_cons query
  have hq := h (r := .symbol .rightParen ")" :: r) rfl
  rw [hts] at hq
  rw [Expr.written_subquery, Token.inParens_append, hts]
  exact primary_subquery rfl rfl hq rfl

/-! ## Optional parts -/

theorem clause_written {k : Keyword} {e? : Option Expr} (h : ∀ e, e? = some e → Rereads 0 e)
    (hr : r.grip = 0) (hk : r.accept? (.keyword k) = none) :
    Yields (clause k (Token.clause k (e?.map (·.written false)) ++ r)) (e?.map (·.unplaced)) r := by
  cases e? with
  | none => exact clause_absent hk
  | some e => exact clause_given rfl ((h e rfl).whole hr)

theorem branches_written {whens thens : List Expr} (hlength : whens.length = thens.length)
    (hw : ∀ e ∈ whens, Rereads 0 e) (ht : ∀ e ∈ thens, Rereads 0 e) (hr : r.grip = 0)
    (hk : r.accept? (.keyword .when) = none) :
    Yields (branches (Token.branches (whens.map (·.written false)) (thens.map (·.written false)) ++
      r)) (whens.map (·.unplaced), thens.map (·.unplaced)) r := by
  induction whens generalizing thens with
  | nil =>
    cases thens with
    | nil => exact branches_stop hk
    | cons => cases hlength
  | cons condition whens ih =>
    cases thens with
    | nil => cases hlength
    | cons result thens =>
      have hrest := ih (Nat.succ.inj hlength) (fun e he => hw e (List.mem_cons_of_mem _ he))
        fun e he => ht e (List.mem_cons_of_mem _ he)
      -- Behind a result the next condition begins, or the branches are over.
      have hgrip : Cursor.grip (Token.branches (whens.map (·.written false))
          (thens.map (·.written false)) ++ r) = 0 := by
        cases whens with
        | nil => exact hr
        | cons => cases thens <;> first | exact hr | rfl
      have hw' : Token.branches ((condition :: whens).map (·.written false))
            ((result :: thens).map (·.written false)) ++ r =
          .word .when :: (condition.written false ++ .word .then :: (result.written false ++
            (Token.branches (whens.map (·.written false)) (thens.map (·.written false)) ++
            r))) := by
        simp [Token.branches_cons]
      rw [hw']
      exact branches_when rfl ((hw _ List.mem_cons_self).whole rfl) rfl
        ((ht _ List.mem_cons_self).whole hgrip) hrest

theorem rereads_case {whens thens : List Expr} {otherwise : Option Expr} (pos : Position)
    (hne : whens ≠ []) (hlength : whens.length = thens.length) (hw : ∀ e ∈ whens, Rereads 0 e)
    (ht : ∀ e ∈ thens, Rereads 0 e) (ho : ∀ e, otherwise = some e → Rereads 0 e) :
    Rereads primaryLevel (.case pos whens thens otherwise) := by
  refine rereads_primary (fun {r} _ => ?_) rfl (fun _ => starts_cons (by decide) _) rfl
  have helse := clause_written (r := .word .end :: r) (k := .else) ho rfl
    (Cursor.accept?_other r (by decide))
  have hbranches := branches_written
    (r := Token.clause .else (otherwise.map (·.written false)) ++ .word .end :: r) hlength hw ht
    (by cases otherwise <;> rfl) (by cases otherwise <;> rfl)
  have hwritten : (Expr.case pos whens thens otherwise).written false ++ r =
      .word .case :: (Token.branches (whens.map (·.written false)) (thens.map (·.written false)) ++
        (Token.clause .else (otherwise.map (·.written false)) ++ .word .end :: r)) := by
    simp [Expr.written_case]
  rw [hwritten, Expr.unplaced, unplacedEach_eq, unplacedEach_eq, unplacedOption_eq]
  exact primary_case rfl hbranches (by simpa using hne) helse rfl

end Grammar

end TableQuery
