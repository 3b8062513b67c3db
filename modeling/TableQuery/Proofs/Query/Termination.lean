import Mathlib.Logic.Relation
import TableQuery.Proofs.Query.Grammar
import TableQuery.Proofs.Query.Planned

/-! # Parsing terminates

Every call that a rule makes is entered with fewer unread tokens than the rule itself, or with the
same tokens and a rule that comes later in a fixed order. Nothing but this is needed: what the plans
of the rules say has one solution, and it is what the rules give. -/

namespace TableQuery

namespace Cursor

/-- Tokens have been read from the front of a cursor, at least one. -/
def ReadPast (c rest : Cursor) : Prop := c.ReadTo rest ∧ rest.length < c.length

theorem ReadTo.length_le {c rest : Cursor} (h : c.ReadTo rest) : rest.length ≤ c.length := by
  obtain ⟨read, rfl, -⟩ := h
  simp

theorem ReadPast.trans_readTo {a b c : Cursor} (h : a.ReadPast b) (h' : b.ReadTo c) :
    a.ReadPast c :=
  ⟨h.1.trans h', Nat.lt_of_le_of_lt h'.length_le h.2⟩

theorem ReadTo.trans_readPast {a b c : Cursor} (h : a.ReadTo b) (h' : b.ReadPast c) :
    a.ReadPast c :=
  ⟨h.trans h'.1, Nat.lt_of_lt_of_le h'.2 h.length_le⟩

theorem accept?_readPast {c : Cursor} {kind : TokenKind} {step : Step Token c.length}
    (ha : c.accept? kind = some step) (hk : kind.isRead = true) : c.ReadPast step.rest :=
  ⟨accept?_readTo ha hk, step.shorter⟩

theorem at?_of_accept? {c : Cursor} {kind : TokenKind} (ha : c.accept? kind = none) :
    c.at? kind = false := by
  cases c with
  | nil => rfl
  | cons t rest =>
    unfold accept? at ha
    dsimp only at ha
    split at ha
    · cases ha
    · next hk => simpa [at?, current?] using hk

theorem ReadPast.token {t : Token} {rest : Cursor} {kind : TokenKind} (ht : t.kind = kind)
    (hk : kind.isRead = true) : ReadPast (t :: rest) rest :=
  ⟨.cons (ht ▸ hk), length_tail_lt t rest⟩

end Cursor

namespace Grammar

/-! ## The order of the rules -/

/-- The place of a rule in the order of all rules. -/
def Rule.place : Rule → Nat
  | script => 0
  | single => 1
  | statement => 2
  | arguments => 3
  | selectList => 4
  | expressions => 5
  | selectColumns => 6
  | chain level => 7 + min level levels
  | signed => 14
  | tested => 15
  | called => 16
  | primary => 17
  | joinList => 18
  | join => 19
  | onClause _ => 20
  | clause _ => 21
  | select => 22
  | chainRest _ _ => 23
  | test _ => 24
  | nullTests _ => 25
  | members => 26
  | callRest _ => 27
  | branches => 28
  | groupClause => 29
  | tableRef => 30
  | orderClause => 31
  | orderKeys => 32

/-- The one call has fewer unread tokens than the other one, or the same tokens and a later rule. -/
def Call.Below (inner outer : Call) : Prop :=
  inner.tokens.length < outer.tokens.length ∨
    inner.tokens = outer.tokens ∧ outer.rule.place < inner.rule.place

theorem Rule.place_lt (rule : Rule) : rule.place < 33 := by
  cases rule <;> simp only [place, levels] <;> omega

theorem Call.below_wellFounded : WellFounded Call.Below := by
  refine Subrelation.wf ?_ (measure fun call => 33 * call.tokens.length + (33 - call.rule.place)).wf
  intro inner outer h
  have hi := inner.rule.place_lt
  have ho := outer.rule.place_lt
  change 33 * inner.tokens.length + (33 - inner.rule.place) <
    33 * outer.tokens.length + (33 - outer.rule.place)
  rcases h with h | ⟨h, hp⟩
  · omega
  · rw [h]
    omega

/-- The rules that read at least one token when they succeed. The others are loops and clauses that
may be absent. -/
def Rule.consumes : Rule → Bool
  | script | chainRest _ _ | test _ | nullTests _ | callRest _ | arguments | branches | clause _
  | groupClause | joinList | onClause _ | orderClause => false
  | _ => true

/-- The rules behind `not` and `-`. -/
def Rule.behindSigns : Rule → Bool
  | tested | called | primary => true
  | _ => false

/-- Where the rule is one behind `not` and `-`, none of the two is at hand. -/
def Call.Unsigned (call : Call) : Prop :=
  call.rule.behindSigns = true →
    call.tokens.at? (.keyword .not) = false ∧ call.tokens.at? .minus = false

/-! ## Plans that descend -/

/-- What is left behind a rule that has been entered with these tokens. -/
def Rule.Leaves (rule : Rule) (c rest : Cursor) : Prop :=
  c.ReadTo rest ∧ (rule.consumes = true → rest.length < c.length)

/-- Provided that calls read tokens from the front, all calls in the plan are below the rule and the
tokens, and so does the rule. -/
def Plan.Descends {α : Type} (outer : Call) : Plan (α × Cursor) → Prop
  | done (.ok (_, rest)) => outer.rule.Leaves outer.tokens rest
  | done (.error _) => True
  | call rule c next =>
    (outer.tokens.ReadTo c ∧ Call.Below ⟨rule, c⟩ outer ∧
      (outer.Unsigned → Call.Unsigned ⟨rule, c⟩)) ∧
    ∀ v rest, rule.Leaves c rest → (next v rest).Descends outer

namespace Plan

variable {α β : Type} {n : Nat} {outer : Call} {w : Cursor}

theorem descends_return (a : α) {rest : Cursor} (h : outer.tokens.ReadPast rest) :
    (pure (a, rest) : Plan (α × Cursor)).Descends outer := ⟨h.1, fun _ => h.2⟩

/-- Nothing needs to have been read. -/
theorem descends_stay (a : α) (h : outer.rule.consumes = false) :
    (pure (a, outer.tokens) : Plan (α × Cursor)).Descends outer :=
  ⟨.refl _, fun hc => absurd (h.symm.trans hc) (by decide)⟩

/-- What is read in one go from where something has been read. -/
theorem descends_sound {P : α → Cursor → Prop} {parsed : Parsed α n}
    {next : α × Cursor → Plan (β × Cursor)} (h : Parsed.Sound (fun _ => True) P w parsed)
    (hw : outer.tokens.ReadPast w)
    (hn : ∀ a rest, outer.tokens.ReadPast rest → (next (a, rest)).Descends outer) :
    (direct parsed >>= next).Descends outer := by
  cases parsed with
  | error failure => trivial
  | ok step =>
    obtain ⟨hread, -⟩ := h.ok (fun _ _ _ => trivial) step rfl
    exact hn step.value step.rest (hw.trans_readTo hread)

theorem descends_label {next : Option String × Cursor → Plan (β × Cursor)}
    (hw : outer.tokens.ReadPast w)
    (hn : ∀ a rest, outer.tokens.ReadPast rest → (next (a, rest)).Descends outer) :
    (direct (label w) >>= next).Descends outer := descends_sound (label_sound w) hw hn

theorem descends_columnRef {next : ColumnRef × Cursor → Plan (β × Cursor)}
    (hw : outer.tokens.ReadTo w)
    (hn : ∀ a rest, outer.tokens.ReadPast rest → (next (a, rest)).Descends outer) :
    (direct (columnRef w) >>= next).Descends outer := by
  cases hc : columnRef w with
  | error failure => trivial
  | ok step =>
    obtain ⟨hread, -⟩ := (columnRef_sound w).ok (N := fun _ => True) (fun _ _ _ => trivial) step hc
    exact hn step.value step.rest (hw.trans_readPast ⟨hread, step.shorter⟩)

theorem descends_take {kind : TokenKind} {expectation : String}
    {next : Token × Cursor → Plan (β × Cursor)} (hw : outer.tokens.ReadTo w)
    (hk : kind.isRead = true)
    (hn : ∀ t rest, outer.tokens.ReadPast rest → (next (t, rest)).Descends outer) :
    (direct (w.take kind expectation) >>= next).Descends outer := by
  unfold Cursor.take
  cases ha : w.accept? kind with
  | none => trivial
  | some step => exact hn _ _ (hw.trans_readPast (Cursor.accept?_readPast ha hk))

/-- Where something has been read, any rule may be called that is not behind signs. -/
theorem descends_ask {rule : Rule} {next : rule.Value × Cursor → Plan (β × Cursor)}
    (hw : outer.tokens.ReadPast w) (hs : rule.behindSigns = false)
    (hn : ∀ v rest, outer.tokens.ReadPast rest → (next (v, rest)).Descends outer) :
    (ask rule w >>= next).Descends outer := by
  refine ⟨⟨hw.1, .inl hw.2, fun _ hb => absurd (hs.symm.trans hb) (by decide)⟩, ?_⟩
  exact fun v rest h => hn v rest (hw.trans_readTo h.1)

theorem descends_last {rule : Rule} (hw : outer.tokens.ReadPast w)
    (hs : rule.behindSigns = false) : (ask rule w).Descends outer := by
  refine ⟨⟨hw.1, .inl hw.2, fun _ hb => absurd (hs.symm.trans hb) (by decide)⟩, ?_⟩
  exact fun v rest h => descends_return v (hw.trans_readTo h.1)

/-- Where nothing has been read, a later rule may be called. -/
theorem descends_enter {entered rule : Rule} {c : Cursor}
    {next : rule.Value × Cursor → Plan (β × Cursor)} (hp : entered.place < rule.place)
    (hs : Call.Unsigned ⟨entered, c⟩ → Call.Unsigned ⟨rule, c⟩)
    (hn : ∀ v rest, rule.Leaves c rest → (next (v, rest)).Descends ⟨entered, c⟩) :
    (ask rule c >>= next).Descends ⟨entered, c⟩ :=
  ⟨⟨.refl _, .inr ⟨rfl, hp⟩, hs⟩, hn⟩

theorem descends_handOver {entered rule : Rule} {c : Cursor} (hp : entered.place < rule.place)
    (hs : Call.Unsigned ⟨entered, c⟩ → Call.Unsigned ⟨rule, c⟩)
    (hc : entered.consumes = true → rule.consumes = true) :
    (ask rule c).Descends ⟨entered, c⟩ :=
  ⟨⟨.refl _, .inr ⟨rfl, hp⟩, hs⟩, fun _ _ h => ⟨h.1, fun ho => h.2 (hc ho)⟩⟩

theorem descends_refuse {next : Unit → Plan (β × Cursor)} (hn : (next ()).Descends outer) :
    (done (refuseSetOperation w) >>= next).Descends outer := by
  cases refuseSetOperation w with
  | error failure => trivial
  | ok _ => exact hn

end Plan

theorem Call.Unsigned.of_rule {rule : Rule} {c : Cursor} (h : rule.behindSigns = false) :
    Call.Unsigned ⟨rule, c⟩ := fun hb => absurd (h.symm.trans hb) (by decide)

theorem Rule.Leaves.readPast {rule : Rule} {c rest : Cursor} (h : rule.Leaves c rest)
    (hc : rule.consumes = true) : c.ReadPast rest := ⟨h.1, h.2 hc⟩

open Plan

theorem script_descends (c : Cursor) : (Plan.script c).Descends ⟨.script, c⟩ := by
  unfold Plan.script
  split
  · exact descends_stay _ rfl
  · refine descends_enter (by decide) (fun _ => .of_rule rfl) fun query c₁ h₁ => ?_
    exact descends_ask (h₁.readPast rfl) rfl fun queries c₂ h₂ => descends_return _ h₂

theorem single_descends (c : Cursor) : (Plan.single c).Descends ⟨.single, c⟩ := by
  unfold Plan.single
  refine descends_enter (by decide) (fun _ => .of_rule rfl) fun query c₁ h₁ => ?_
  dsimp only
  split
  · exact descends_return _ (h₁.readPast rfl)
  · trivial

theorem statement_descends (c : Cursor) : (Plan.statement c).Descends ⟨.statement, c⟩ := by
  unfold Plan.statement
  refine descends_enter (by decide) (fun _ => .of_rule rfl) fun query c₁ h₁ => ?_
  dsimp only
  split
  · exact descends_return _ (h₁.readPast rfl)
  · exact descends_take h₁.1 (by decide) fun _ c₂ h₂ => descends_return _ h₂

theorem chain_descends (level : Nat) (c : Cursor) :
    (Plan.chain level c).Descends ⟨.chain level, c⟩ := by
  unfold Plan.chain
  split
  · next hl =>
    have hp : (Rule.chain level).place < (Rule.chain (level + 1)).place := by
      simp only [Rule.place]
      omega
    refine descends_enter hp (fun _ => .of_rule rfl) fun left c₁ h₁ => ?_
    exact descends_last (h₁.readPast rfl) rfl
  · have hp : (Rule.chain level).place < Rule.signed.place := by
      simp only [Rule.place, levels]
      omega
    exact descends_handOver hp (fun _ => .of_rule rfl) fun _ => rfl

theorem chainRest_descends (level : Nat) (left : Expr) (c : Cursor) :
    (Plan.chainRest level left c).Descends ⟨.chainRest level left, c⟩ := by
  unfold Plan.chainRest
  cases c with
  | nil => exact descends_stay _ rfl
  | cons t rest =>
    dsimp only
    split
    · exact descends_stay _ rfl
    · next node hn =>
      refine descends_ask (.token rfl (isRead_of_operatorNode? hn)) rfl fun right c₁ h₁ => ?_
      exact descends_last h₁ rfl

/-- What `signed` hands over to the rules behind signs begins with no sign. -/
theorem signed_descends (c : Cursor) : (Plan.signed c).Descends ⟨.signed, c⟩ := by
  unfold Plan.signed
  cases hnot : c.accept? (.keyword .not) with
  | some step =>
    refine descends_ask (Cursor.accept?_readPast hnot (by decide)) rfl fun e c₂ h₂ => ?_
    exact descends_return _ h₂
  | none =>
    cases hminus : c.accept? .minus with
    | some step =>
      refine descends_ask (Cursor.accept?_readPast hminus (by decide)) rfl fun e c₂ h₂ => ?_
      exact descends_return _ h₂
    | none =>
      have hunsigned : Call.Unsigned ⟨.tested, c⟩ :=
        fun _ => ⟨Cursor.at?_of_accept? hnot, Cursor.at?_of_accept? hminus⟩
      exact descends_handOver (by decide) (fun _ => hunsigned) fun _ => rfl

theorem tested_descends (c : Cursor) : (Plan.tested c).Descends ⟨.tested, c⟩ := by
  unfold Plan.tested
  refine descends_enter (by decide) (fun h _ => h rfl) fun subject c₁ h₁ => ?_
  replace h₁ := h₁.readPast rfl
  dsimp only
  cases hnot : c₁.accept? (.keyword .not) with
  | some step =>
    have h₂ := h₁.1.trans_readPast (Cursor.accept?_readPast hnot (by decide))
    refine descends_ask h₂ rfl fun found c₃ h₃ => ?_
    cases found with
    | none => trivial
    | some e => exact descends_last h₃ rfl
  | none => exact descends_ask h₁ rfl fun found c₂ h₂ => descends_last h₂ rfl

theorem test_descends (subject : Expr) (c : Cursor) :
    (Plan.test subject c).Descends ⟨.test subject, c⟩ := by
  unfold Plan.test
  cases c with
  | nil => exact descends_stay _ rfl
  | cons t rest =>
    dsimp only
    split
    · next hk =>
      have h : Cursor.ReadPast (t :: rest) rest := .token hk rfl
      exact descends_ask h rfl fun items c₁ h₁ => descends_return _ h₁
    · next hk =>
      have h : Cursor.ReadPast (t :: rest) rest := .token hk rfl
      refine descends_ask h rfl fun low c₁ h₁ => ?_
      refine descends_take h₁.1 (by decide) fun _ c₂ h₂ => ?_
      exact descends_ask h₂ rfl fun high c₃ h₃ => descends_return _ h₃
    · next hk =>
      have h : Cursor.ReadPast (t :: rest) rest := .token hk rfl
      exact descends_ask h rfl fun pattern c₁ h₁ => descends_return _ h₁
    · next hk =>
      have h : Cursor.ReadPast (t :: rest) rest := .token hk rfl
      exact descends_ask h rfl fun pattern c₁ h₁ => descends_return _ h₁
    · exact descends_stay _ rfl

theorem nullTests_descends (subject : Expr) (c : Cursor) :
    (Plan.nullTests subject c).Descends ⟨.nullTests subject, c⟩ := by
  unfold Plan.nullTests
  cases his : c.accept? (.keyword .is) with
  | none => exact descends_stay _ rfl
  | some step =>
    have h₁ := Cursor.accept?_readPast his (by decide)
    dsimp only
    cases hnot : step.rest.accept? (.keyword .not) with
    | none => exact descends_take h₁.1 (by decide) fun _ c₂ h₂ => descends_last h₂ rfl
    | some inner =>
      have h₂ := h₁.1.trans_readPast (Cursor.accept?_readPast hnot (by decide))
      exact descends_take h₂.1 (by decide) fun _ c₃ h₃ => descends_last h₃ rfl

theorem members_descends (c : Cursor) : (Plan.members c).Descends ⟨.members, c⟩ := by
  unfold Plan.members
  refine descends_take (.refl c) (by decide) fun _ c₁ h₁ => ?_
  dsimp only
  split
  · refine descends_ask h₁ rfl fun query c₂ h₂ => ?_
    exact descends_take h₂.1 (by decide) fun _ c₃ h₃ => descends_return _ h₃
  · split
    · trivial
    · refine descends_ask h₁ rfl fun items c₂ h₂ => ?_
      exact descends_take h₂.1 (by decide) fun _ c₃ h₃ => descends_return _ h₃

theorem called_descends (c : Cursor) : (Plan.called c).Descends ⟨.called, c⟩ := by
  unfold Plan.called
  refine descends_enter (by decide) (fun h _ => h rfl) fun callee c₁ h₁ => ?_
  exact descends_last (h₁.readPast rfl) rfl

theorem callRest_descends (callee : Expr) (c : Cursor) :
    (Plan.callRest callee c).Descends ⟨.callRest callee, c⟩ := by
  unfold Plan.callRest
  cases ha : c.accept? .leftParen with
  | none => exact descends_stay _ rfl
  | some step =>
    refine descends_ask (Cursor.accept?_readPast ha (by decide)) rfl fun args c₂ h₂ => ?_
    exact descends_take h₂.1 (by decide) fun _ c₃ h₃ => descends_last h₃ rfl

theorem arguments_descends (c : Cursor) : (Plan.arguments c).Descends ⟨.arguments, c⟩ := by
  unfold Plan.arguments
  cases ha : c.accept? .star with
  | some step => exact descends_return _ (Cursor.accept?_readPast ha (by decide))
  | none =>
    dsimp only
    split
    · exact descends_stay _ rfl
    · refine descends_enter (by decide) (fun _ => .of_rule rfl) fun args c₁ h₁ => ?_
      exact descends_return _ (h₁.readPast rfl)

theorem primary_descends (c : Cursor) : (Plan.primary c).Descends ⟨.primary, c⟩ := by
  unfold Plan.primary
  cases c with
  | nil => trivial
  | cons t rest =>
    dsimp only
    split
    · next hk =>
      have h : Cursor.ReadPast (t :: rest) rest := .token hk rfl
      split
      · refine descends_ask h rfl fun query c₁ h₁ => ?_
        exact descends_take h₁.1 (by decide) fun _ c₂ h₂ => descends_return _ h₂
      · refine descends_ask h rfl fun e c₁ h₁ => ?_
        exact descends_take h₁.1 (by decide) fun _ c₂ h₂ => descends_return _ h₂
    · refine descends_enter (by decide) (fun _ => .of_rule rfl) fun query c₁ h₁ => ?_
      exact descends_return _ (h₁.readPast rfl)
    · next hk =>
      have h : Cursor.ReadPast (t :: rest) rest := .token hk rfl
      refine descends_take h.1 (by decide) fun _ c₁ h₁ => ?_
      refine descends_ask h₁ rfl fun query c₂ h₂ => ?_
      exact descends_take h₂.1 (by decide) fun _ c₃ h₃ => descends_return _ h₃
    · next hk =>
      have h : Cursor.ReadPast (t :: rest) rest := .token hk rfl
      refine descends_ask h rfl fun cases c₁ h₁ => ?_
      dsimp only
      split
      · trivial
      · refine descends_ask h₁ rfl fun otherwise c₂ h₂ => ?_
        exact descends_take h₂.1 (by decide) fun _ c₃ h₃ => descends_return _ h₃
    · exact descends_columnRef (.refl _) fun ref c₁ h₁ => descends_return _ h₁
    · trivial
    · trivial
    all_goals first | trivial | next hk => exact descends_return _ (.token hk rfl)

theorem branches_descends (c : Cursor) : (Plan.branches c).Descends ⟨.branches, c⟩ := by
  unfold Plan.branches
  cases ha : c.accept? (.keyword .when) with
  | none => exact descends_stay _ rfl
  | some step =>
    refine descends_ask (Cursor.accept?_readPast ha (by decide)) rfl fun condition c₂ h₂ => ?_
    refine descends_take h₂.1 (by decide) fun _ c₃ h₃ => ?_
    refine descends_ask h₃ rfl fun result c₄ h₄ => ?_
    exact descends_ask h₄ rfl fun others c₅ h₅ => descends_return _ h₅

theorem expressions_descends (c : Cursor) :
    (Plan.expressions c).Descends ⟨.expressions, c⟩ := by
  unfold Plan.expressions
  refine descends_enter (by decide) (fun _ => .of_rule rfl) fun e c₁ h₁ => ?_
  replace h₁ := h₁.readPast rfl
  dsimp only
  cases ha : c₁.accept? .comma with
  | none => exact descends_return _ h₁
  | some step =>
    have h₂ := h₁.1.trans_readPast (Cursor.accept?_readPast ha (by decide))
    exact descends_ask h₂ rfl fun es c₃ h₃ => descends_return _ h₃

theorem clause_descends (word : Keyword) (c : Cursor) :
    (Plan.clause word c).Descends ⟨.clause word, c⟩ := by
  unfold Plan.clause
  cases ha : c.accept? (.keyword word) with
  | none => exact descends_stay _ rfl
  | some step =>
    refine descends_ask (Cursor.accept?_readPast ha rfl) rfl fun e c₂ h₂ => ?_
    exact descends_return _ h₂

theorem select_descends (c : Cursor) : (Plan.select c).Descends ⟨.select, c⟩ := by
  unfold Plan.select
  refine descends_take (.refl c) (by decide) fun start c₁ h₁ => ?_
  dsimp only
  split
  · trivial
  · refine descends_ask h₁ rfl fun columns c₂ h₂ => ?_
    dsimp only
    cases ha : c₂.accept? (.keyword .from) with
    | none =>
      dsimp only
      split
      · trivial
      · exact descends_refuse (descends_return _ h₂)
    | some step =>
      have h₃ := h₂.1.trans_readPast (Cursor.accept?_readPast ha (by decide))
      refine descends_ask h₃ rfl fun source c₄ h₄ => ?_
      refine descends_ask h₄ rfl fun joins c₅ h₅ => ?_
      refine descends_ask h₅ rfl fun filter c₆ h₆ => ?_
      refine descends_ask h₆ rfl fun groupBy c₇ h₇ => ?_
      refine descends_ask h₇ rfl fun having c₈ h₈ => ?_
      refine descends_ask h₈ rfl fun orderBy c₉ h₉ => ?_
      refine descends_ask h₉ rfl fun limit c₁₀ h₁₀ => ?_
      refine descends_ask h₁₀ rfl fun offset c₁₁ h₁₁ => ?_
      exact descends_refuse (descends_return _ h₁₁)

theorem selectList_descends (c : Cursor) : (Plan.selectList c).Descends ⟨.selectList, c⟩ := by
  unfold Plan.selectList
  cases ha : c.accept? .star with
  | some step => exact descends_return _ (Cursor.accept?_readPast ha (by decide))
  | none => exact descends_handOver (by decide) (fun _ => .of_rule rfl) fun _ => rfl

theorem selectColumns_descends (c : Cursor) :
    (Plan.selectColumns c).Descends ⟨.selectColumns, c⟩ := by
  unfold Plan.selectColumns
  refine descends_enter (by decide) (fun _ => .of_rule rfl) fun e c₁ h₁ => ?_
  refine descends_label (h₁.readPast rfl) fun name c₂ h₂ => ?_
  dsimp only
  cases ha : c₂.accept? .comma with
  | none => exact descends_return _ h₂
  | some step =>
    have h₃ := h₂.1.trans_readPast (Cursor.accept?_readPast ha (by decide))
    exact descends_ask h₃ rfl fun columns c₄ h₄ => descends_return _ h₄

theorem groupClause_descends (c : Cursor) :
    (Plan.groupClause c).Descends ⟨.groupClause, c⟩ := by
  unfold Plan.groupClause
  cases ha : c.accept? (.keyword .group) with
  | none => exact descends_stay _ rfl
  | some step =>
    have h₁ := Cursor.accept?_readPast ha (by decide)
    exact descends_take h₁.1 (by decide) fun _ c₂ h₂ => descends_last h₂ rfl

theorem tableRef_descends (c : Cursor) : (Plan.tableRef c).Descends ⟨.tableRef, c⟩ := by
  unfold Plan.tableRef
  cases c with
  | nil => trivial
  | cons t rest =>
    dsimp only
    split
    · next hk =>
      have h : Cursor.ReadPast (t :: rest) rest := .token hk rfl
      exact descends_label h fun name c₁ h₁ => descends_return _ h₁
    · split
      · next hk =>
        have h : Cursor.ReadPast (t :: rest) rest := .token hk.1 rfl
        refine descends_ask h rfl fun query c₁ h₁ => ?_
        refine descends_take h₁.1 (by decide) fun _ c₂ h₂ => ?_
        exact descends_label h₂ fun name c₃ h₃ => descends_return _ h₃
      · trivial

theorem joinList_descends (c : Cursor) : (Plan.joinList c).Descends ⟨.joinList, c⟩ := by
  unfold Plan.joinList
  split
  · refine descends_enter (by decide) (fun _ => .of_rule rfl) fun first c₁ h₁ => ?_
    exact descends_ask (h₁.readPast rfl) rfl fun others c₂ h₂ => descends_return _ h₂
  · exact descends_stay _ rfl

theorem join_descends (c : Cursor) : (Plan.join c).Descends ⟨.join, c⟩ := by
  unfold Plan.join
  cases c with
  | nil => trivial
  | cons t rest =>
    dsimp only
    cases hj : joinStart? t.kind with
    | none => trivial
    | some start =>
      have h : Cursor.ReadPast (t :: rest) rest := .token rfl (isRead_of_joinStart? hj)
      refine descends_sound (joinWords_sound t start.1 start.2 rest) h fun _ c₁ h₁ => ?_
      refine descends_ask h₁ rfl fun table c₂ h₂ => ?_
      exact descends_ask h₂ rfl fun condition c₃ h₃ => descends_return _ h₃

theorem onClause_descends (kind : JoinKind) (c : Cursor) :
    (Plan.onClause kind c).Descends ⟨.onClause kind, c⟩ := by
  unfold Plan.onClause
  split
  · exact descends_stay _ rfl
  · have hp : (Rule.onClause kind).place < (Rule.clause .on).place := Nat.lt_succ_self 20
    exact descends_handOver hp (fun _ => .of_rule rfl) fun h => h

theorem orderClause_descends (c : Cursor) :
    (Plan.orderClause c).Descends ⟨.orderClause, c⟩ := by
  unfold Plan.orderClause
  cases ha : c.accept? (.keyword .order) with
  | none => exact descends_stay _ rfl
  | some step =>
    have h₁ := Cursor.accept?_readPast ha (by decide)
    exact descends_take h₁.1 (by decide) fun _ c₂ h₂ => descends_last h₂ rfl

theorem orderKeys_descends (c : Cursor) : (Plan.orderKeys c).Descends ⟨.orderKeys, c⟩ := by
  unfold Plan.orderKeys
  refine descends_columnRef (.refl c) fun column c₁ h₁ => ?_
  have h₂ := h₁.trans_readTo (direction_readTo c₁)
  dsimp only
  cases ha : (direction c₁).rest.accept? .comma with
  | none => exact descends_return _ h₂
  | some step =>
    have h₃ := h₂.1.trans_readPast (Cursor.accept?_readPast ha (by decide))
    exact descends_ask h₃ rfl fun keys c₄ h₄ => descends_return _ h₄

/-- Provided that calls read from the front, every rule makes calls below it only, and reads from
the front. -/
theorem plan_descends (rule : Rule) (c : Cursor) : (rule.plan c).Descends ⟨rule, c⟩ := by
  cases rule with
  | script => exact script_descends c
  | single => exact single_descends c
  | statement => exact statement_descends c
  | chain level => exact chain_descends level c
  | chainRest level left => exact chainRest_descends level left c
  | signed => exact signed_descends c
  | tested => exact tested_descends c
  | test subject => exact test_descends subject c
  | nullTests subject => exact nullTests_descends subject c
  | members => exact members_descends c
  | called => exact called_descends c
  | callRest callee => exact callRest_descends callee c
  | arguments => exact arguments_descends c
  | primary => exact primary_descends c
  | branches => exact branches_descends c
  | expressions => exact expressions_descends c
  | clause word => exact clause_descends word c
  | select => exact select_descends c
  | selectList => exact selectList_descends c
  | selectColumns => exact selectColumns_descends c
  | groupClause => exact groupClause_descends c
  | tableRef => exact tableRef_descends c
  | joinList => exact joinList_descends c
  | join => exact join_descends c
  | onClause kind => exact onClause_descends kind c
  | orderClause => exact orderClause_descends c
  | orderKeys => exact orderKeys_descends c

/-! ## Answers to calls -/

/-- Where the call is answered by a value, tokens have been read from the front. -/
def Answers.Forward (answers : Answers) (call : Call) : Prop :=
  ∀ v rest, answers call.rule call.tokens = .ok (v, rest) → call.rule.Leaves call.tokens rest

section

variable {α : Type} {outer : Call} {answers : Answers}

/-- A plan that descends reads from the front if the calls below do. -/
theorem Plan.Descends.leaves {plan : Plan (α × Cursor)} (h : plan.Descends outer)
    (ha : ∀ call : Call, call.Below outer → answers.Forward call) {a : α} {rest : Cursor}
    (hr : plan.run answers = .ok (a, rest)) : outer.rule.Leaves outer.tokens rest := by
  induction plan with
  | done outcome =>
    simp only [run] at hr
    subst hr
    exact h
  | call rule c next ih =>
    simp only [run] at hr
    cases hv : answers rule c with
    | error failure =>
      rw [hv] at hr
      cases hr
    | ok answer =>
      rw [hv] at hr
      exact ih _ _ (h.2 _ _ (ha ⟨rule, c⟩ h.1.2.1 _ _ hv)) hr

/-- What a plan that descends gives is settled by the answers to the calls below. -/
theorem Plan.Descends.run_congr {plan : Plan (α × Cursor)} {others : Answers}
    (h : plan.Descends outer) (ha : ∀ call : Call, call.Below outer → answers.Forward call)
    (heq : ∀ call : Call, call.Below outer →
      others call.rule call.tokens = answers call.rule call.tokens) :
    plan.run others = plan.run answers := by
  induction plan with
  | done outcome => rfl
  | call rule c next ih =>
    simp only [run, heq ⟨rule, c⟩ h.1.2.1]
    cases hv : answers rule c with
    | error failure => rfl
    | ok answer => exact ih _ _ (h.2 _ _ (ha ⟨rule, c⟩ h.1.2.1 _ _ hv))

/-- The calls that a plan makes which descends. -/
theorem Plan.Descends.makes {plan : Plan (α × Cursor)} {inner : Call} (h : plan.Descends outer)
    (ha : ∀ call, answers.Forward call) (hm : plan.Makes answers inner) :
    outer.tokens.ReadTo inner.tokens ∧ inner.Below outer ∧ (outer.Unsigned → inner.Unsigned) := by
  generalize hp : plan = made at hm
  induction hm generalizing plan with
  | first =>
    subst hp
    exact h.1
  | behind answered _ ih =>
    subst hp
    exact ih (h.2 _ _ (ha ⟨_, _⟩ _ _ answered)) rfl

end

/-- Rules read from the front. By induction along the calls. -/
theorem outcome_forward (call : Call) : Answers.Forward Rule.outcome call := by
  induction call using Call.below_wellFounded.induction with
  | _ call ih =>
    intro v rest h
    rw [follows_plan] at h
    exact (plan_descends call.rule call.tokens).leaves ih h

/-- The rules are the only answers that the plans allow. By induction along the calls. -/
theorem outcome_unique {answers : Answers}
    (h : ∀ rule c, answers rule c = (rule.plan c).run answers) : answers = Rule.outcome := by
  have hcall : ∀ call : Call, answers call.rule call.tokens = call.rule.outcome call.tokens := by
    intro call
    induction call using Call.below_wellFounded.induction with
    | _ call ih =>
      rw [h, follows_plan]
      have hbelow : ∀ inner : Call, inner.Below call → Answers.Forward Rule.outcome inner :=
        fun inner _ => outcome_forward inner
      exact (plan_descends call.rule call.tokens).run_congr hbelow ih
  funext rule c
  exact hcall ⟨rule, c⟩

theorem Call.Makes.descends {outer inner : Call} (h : outer.Makes inner) :
    outer.tokens.ReadTo inner.tokens ∧ inner.Below outer ∧ (outer.Unsigned → inner.Unsigned) :=
  (plan_descends outer.rule outer.tokens).makes outcome_forward h

/-- Parsing ends. The plans of the rules have one solution, the rules themselves; every call that a
rule makes for whatever tokens is entered with fewer of them or with a later rule, and there is no
endless descent of that kind; and rules read from the front, at least one token where they are no
loop and no clause. No rule behind the signs is ever entered at a sign, so none of them has to go
back to the signs. -/
theorem recursion_descends :
    (∀ answers : Answers,
      (∀ rule c, answers rule c = (rule.plan c).run answers) ↔ answers = Rule.outcome) ∧
    (∀ outer inner : Call, outer.Makes inner →
      outer.tokens.ReadTo inner.tokens ∧ inner.Below outer) ∧
    WellFounded Call.Below ∧
    (∀ (rule : Rule) (c : Cursor) v rest, rule.outcome c = .ok (v, rest) →
      c.ReadTo rest ∧ (rule.consumes = true → c.ReadPast rest)) ∧
    ∀ entry call : Call, entry.rule.behindSigns = false →
      Relation.ReflTransGen Call.Makes entry call → call.Unsigned := by
  refine ⟨fun answers => ⟨outcome_unique, ?_⟩, fun outer inner h => ?_, Call.below_wellFounded,
    fun rule c v rest h => ?_, fun entry call hentry hreach => ?_⟩
  · rintro rfl
    exact follows_plan
  · obtain ⟨hread, hbelow, -⟩ := h.descends
    exact ⟨hread, hbelow⟩
  · have hleaves : rule.Leaves c rest := outcome_forward ⟨rule, c⟩ v rest h
    exact ⟨hleaves.1, hleaves.readPast⟩
  · induction hreach with
    | refl => exact .of_rule hentry
    | tail _ hmade ih => exact hmade.descends.2.2 ih

/-- The second of two signs, which is read by the rule that reads the first one. -/
theorem second_sign_descends :
    let outer : Call := ⟨.signed, [⟨.minus, "-", none, .start⟩, ⟨.minus, "-", none, ⟨1, 2⟩⟩,
      ⟨.endOfText, "", none, ⟨1, 3⟩⟩]⟩
    let inner : Call := ⟨.signed, [⟨.minus, "-", none, ⟨1, 2⟩⟩, ⟨.endOfText, "", none, ⟨1, 3⟩⟩]⟩
    outer.Makes inner ∧ outer.tokens.ReadTo inner.tokens ∧ inner.Below outer := by
  intro outer inner
  have hmade : outer.Makes inner := Plan.Makes.first
  exact ⟨hmade, recursion_descends.2.1 outer inner hmade⟩

end Grammar

end TableQuery
