import TableQuery.Proofs.Query.Reading
import TableQuery.Proofs.Query.Walk

/-! # Errors are reported in time

Whatever a statement breaks off with, the tokens in front of the one that is blamed begin some
statement that is read without an error. To finish what is open there, each rule says what it can be
completed with and what may follow then: an expression is closed by a null test, so that no operator
and no `and` behind it is read as part of it, a query by a bracket, which is read as a call of the
query where it is an operand. -/

namespace TableQuery.Grammar

open Parsed Reading

/-! ## What may follow -/

/-- The kinds of tokens behind which nothing that is complete goes on, but for a callee in front of
an opening bracket. -/
def closings : List TokenKind :=
  [.leftParen, .rightParen, .keyword .then, .keyword .end, .endOfText]

/-- A token that closes what stands in front of it. -/
def AtCloser (c : Cursor) : Prop := ∃ t rest, c = t :: rest ∧ t.kind ∈ closings

/-- No call goes on here. -/
def NoCall (c : Cursor) : Prop := c.accept? .leftParen = none

/-- Expressions of this level end here, and so do the sums in them. -/
abbrev Ends (level : Nat) : Cursor → Prop := StopsAt (min level sumLevel)

/-- The reading reads nothing in front of a closing token. -/
def Passes (f : Reading) : Prop := ∀ c, AtCloser c → f c = .ok c

variable {T : Cursor → Prop} {f g : Reading} {c s : Cursor} {kind : TokenKind} {level : Nat}

theorem atCloser_cons {t : Token} {rest : Cursor} (h : t.kind ∈ closings) : AtCloser (t :: rest) :=
  ⟨t, rest, rfl, h⟩

theorem closes (h : kind ∈ closings) (rest : Cursor) : AtCloser (sample kind :: rest) :=
  atCloser_cons h

theorem AtCloser.accept? (h : AtCloser c) (hk : kind ∉ closings) : c.accept? kind = none := by
  obtain ⟨t, rest, rfl, ht⟩ := h
  exact Cursor.accept?_other rest fun he => hk (he ▸ ht)

theorem AtCloser.stopsAt (h : AtCloser c) (level : Nat) : StopsAt level c := by
  have hnone : ∀ k ∈ closings, k ≠ .keyword .is ∧ ∀ l, operatorNode? l k = none := by
    simp [closings, operatorNode?]
  obtain ⟨t, rest, rfl, ht⟩ := h
  intro u hu
  cases hu
  obtain ⟨his, hop⟩ := hnone t.kind ht
  exact ⟨his, fun l _ => hop l⟩

theorem StopsAt.mono {l l' : Nat} (h : StopsAt l c) (hl : l ≤ l') : StopsAt l' c :=
  fun t ht => ⟨(h t ht).1, fun k hk => (h t ht).2 k (Nat.le_trans hl hk)⟩

theorem StopsAt.accept? {l : Nat} (h : StopsAt l c) : c.accept? (.keyword .is) = none :=
  Cursor.accept?_eq_none fun t ht => (h t ht).1

/-! ## Passing -/

theorem passes_ok : Passes .ok := fun _ _ => rfl

theorem Passes.alt (h : Passes g) (hk : kind ∉ closings) : Passes (alt kind f g) :=
  fun c hc => (alt_other (hc.accept? hk)).trans (h c hc)

theorem Passes.seq (hf : Passes f) (hg : Passes g) : Passes (f >=> g) :=
  fun c hc => (seq_eq (hf c hc)).trans (hg c hc)

/-- What is open in front of a reading is closed behind it. -/
theorem Passes.behind (hp : Passes g) (hf : Completable AtCloser f c)
    (hg : ∀ rest, rest.length ≤ c.length → Completable AtCloser g rest) :
    Completable AtCloser (f >=> g) c := hf.seq hg [] fun s hs => ⟨hs, hp s hs⟩

theorem option_completable (hk : kind ∉ closings)
    (hf : ∀ rest, rest.length < c.length → Completable AtCloser f rest) :
    Completable AtCloser (alt kind f .ok) c :=
  completable_option hf fun _ hs => hs.accept? hk

theorem Passes.completes (hp : Passes f) : Completes AtCloser f [] := ⟨[], hp⟩

theorem Passes.completes_seq (hp : Passes g) (hf : Completes AtCloser f []) :
    Completes AtCloser (f >=> g) [] := hf.seq [] fun s hs => ⟨hs, hp s hs⟩

/-! ## Expressions from nothing -/

/-- Where a rule stops does not depend on the expression that it goes on from, so any will do. -/
def origin : Expr := .literal .start .null

/-- An expression that no operator behind it becomes part of. -/
def nullTest : List Token :=
  [sample (.keyword .null), sample (.keyword .is), sample (.keyword .null)]

/-- Behind a subject and all its tests. -/
theorem tests_nullTest (f : Reading) (h : StopsAt levels s) :
    alt (.keyword .not) f (test .ok >=> ofRule (nullTests origin))
      (sample (.keyword .is) :: sample (.keyword .null) :: s) = .ok s := by
  have htest (rest : Cursor) : test .ok (sample (.keyword .is) :: rest) =
      .ok (sample (.keyword .is) :: rest) := rfl
  rw [alt_other rfl, seq_eq (htest _), ofRule_nullTests, alt_sample, alt_other rfl,
    token_seq_sample]
  exact (nullTests_stop h.accept?).stop_eq

theorem tested_nullTest (h : StopsAt levels s) : ofRule tested (nullTest ++ s) = .ok s := by
  have hprimary (rest : Cursor) : ofRule primary (sample (.keyword .null) :: rest) = .ok rest :=
    (primary_literal (by decide)).stop_eq
  have hcalled : ofRule called (nullTest ++ s) =
      .ok (sample (.keyword .is) :: sample (.keyword .null) :: s) := by
    rw [ofRule_called origin]
    exact (seq_eq (hprimary _)).trans (callRest_stop rfl).stop_eq
  rw [ofRule_tested origin, seq_eq hcalled]
  exact tests_nullTest _ h

theorem chain_nullTest (hl : level ≤ levels) (h : StopsAt level s) :
    ofRule (chain level) (nullTest ++ s) = .ok s := by
  obtain ⟨k, hk⟩ := Nat.le.dest hl
  induction k generalizing level with
  | zero =>
    obtain rfl : level = levels := hk
    rw [ofRule_chain_levels, ofRule_signed]
    exact tested_nullTest h
  | succ k ih =>
    have hlt : level < levels := by omega
    have htighter := ih hlt (h.mono (Nat.le_succ level)) (by omega)
    rw [ofRule_chain hlt origin, seq_eq htighter]
    exact ofRule_chainRest_stop fun t ht => (h t ht).2 level (Nat.le_refl level)

theorem whole_nullTest (h : AtCloser s) : ofRule (chain 0) (nullTest ++ s) = .ok s :=
  chain_nullTest (Nat.zero_le levels) (h.stopsAt 0)

theorem expressions_nullTest (h : AtCloser s) : ofRule expressions (nullTest ++ s) = .ok s := by
  rw [ofRule_expressions, seq_eq (whole_nullTest h)]
  exact alt_other (h.accept? (by decide))

/-! ## What may be left out -/

theorem passes_label : Passes (ofRule label) := by
  rw [ofRule_label]
  exact (passes_ok.alt (by decide)).alt (by decide)

theorem passes_way : Passes way := (passes_ok.alt (by decide)).alt (by decide)

theorem passes_orderClause : Passes (ofRule orderClause) := by
  rw [ofRule_orderClause]
  exact passes_ok.alt (by decide)

theorem passes_clause {k : Keyword} (hk : .keyword k ∉ closings) : Passes (ofRule (clause k)) := by
  rw [ofRule_clause]
  exact passes_ok.alt hk

theorem passes_branches : Passes (ofRule branches) := by
  rw [ofRule_branches]
  exact passes_ok.alt (by decide)

theorem passes_groupClause : Passes (ofRule groupClause) := by
  rw [ofRule_groupClause]
  exact passes_ok.alt (by decide)

theorem passes_onClause (kind : JoinKind) : Passes (ofRule (onClause kind)) := by
  rw [ofRule_onClause]
  split
  · exact passes_ok
  · exact passes_clause (by decide)

theorem passes_joinList : Passes (ofRule joinList) := by
  have hnone : ∀ k ∈ closings, joinStart? k = none := by simp [closings, joinStart?]
  rintro c ⟨t, rest, rfl, ht⟩
  refine ofRule_joinList_stop fun u hu => ?_
  cases hu
  exact hnone t.kind ht

theorem passes_refuse : Passes refuse := by
  have hnone : ∀ k ∈ closings, setOperation? k = none := by simp [closings, setOperation?]
  rintro c ⟨t, rest, rfl, ht⟩
  unfold refuse refuseSetOperation
  simp only [Cursor.current?, List.head?_cons, hnone t.kind ht]

/-! ## Rules without expressions in them -/

theorem columnRef_completable : Completable AtCloser (ofRule columnRef) c := by
  rw [ofRule_columnRef]
  exact completable_token_seq
    (fun c₁ _ => option_completable (by decide) fun _ _ => completable_token)
    (passes_ok.alt (by decide)).completes

theorem label_completable : Completable AtCloser (ofRule label) c := by
  rw [ofRule_label]
  refine completable_alt (fun _ _ => completable_token) (fun _ => .inr ?_) completes_token.alt
  exact option_completable (by decide) fun _ _ => completable_stop

theorem way_completable : Completable AtCloser way c := by
  refine completable_alt (fun _ _ => completable_stop) (fun _ => .inr ?_) completes_ok.alt
  exact option_completable (by decide) fun _ _ => completable_stop

theorem orderKeys_completable (c : Cursor) : Completable AtCloser (ofRule orderKeys) c := by
  rw [ofRule_orderKeys]
  have hmore : Passes (alt .comma (ofRule orderKeys) .ok) := passes_ok.alt (by decide)
  refine (passes_way.seq hmore).behind columnRef_completable fun c₁ h₁ => ?_
  refine hmore.behind way_completable fun c₂ h₂ => ?_
  exact option_completable (by decide) fun c₃ h₃ => orderKeys_completable c₃
termination_by c.length

theorem orderClause_completable : Completable AtCloser (ofRule orderClause) c := by
  rw [ofRule_orderClause]
  refine option_completable (by decide) fun c₁ _ => ?_
  exact completable_token_seq (fun c₂ _ => orderKeys_completable c₂)
    (orderKeys_completable []).completes

theorem nullTests_completable (c : Cursor) :
    Completable (StopsAt sumLevel) (ofRule (nullTests origin)) c := by
  have hmore : Completes (StopsAt sumLevel) (ofRule (nullTests origin)) [] :=
    ⟨[], fun _ hs => (nullTests_stop hs.accept?).stop_eq⟩
  rw [ofRule_nullTests]
  refine completable_option (fun c₁ h₁ => ?_) fun _ hs => hs.accept?
  have hnull (rest : Cursor) (hr : rest.length ≤ c₁.length) : Completable (StopsAt sumLevel)
      (token (.keyword .null) >=> ofRule (nullTests origin)) rest :=
    completable_token_seq (fun c₂ h₂ => nullTests_completable c₂) hmore
  exact completable_alt (fun rest hr => hnull rest (Nat.le_of_lt hr))
    (fun _ => .inr (hnull c₁ (Nat.le_refl _))) hmore.token_seq.alt
termination_by c.length

theorem literal_completable : Completable T literal c :=
  completable_alt (fun _ _ => completable_stop) (fun _ => .inr <|
    completable_alt (fun _ _ => completable_stop) (fun _ => .inr <|
      completable_alt (fun _ _ => completable_stop) (fun _ => .inr <|
        completable_alt (fun _ _ => completable_stop) (fun _ => .inr completable_token)
          completes_ok.alt) completes_ok.alt) completes_ok.alt) completes_ok.alt

theorem joinWords_completable (start : Token) (kind : JoinKind) (needsJoin : Bool) :
    Completable T (ofRule (joinWords start kind needsJoin)) c := by
  rw [ofRule_joinWords]
  split
  · split
    · exact completable_alt (fun _ _ => completable_token) (fun _ => .inr completable_token)
        completes_token.alt
    · exact completable_token
  · exact completable_stop

theorem refuse_completable : Completable AtCloser refuse c := by
  cases c with
  | nil => exact completable_error rfl passes_refuse.completes
  | cons t rest =>
    cases hset : setOperation? t.kind with
    | none =>
      refine completable_ok (fun r hr => ?_) passes_refuse.completes
      obtain ⟨more, rfl⟩ := List.head?_eq_some_iff.mp hr
      simp [refuse, refuseSetOperation, Cursor.current?, hset]
    | some feature =>
      refine completable_error ?_ passes_refuse.completes
      simp [refuse, refuseSetOperation, Cursor.current?, hset, Cursor.unsupported, Cursor.blame]

/-! ## Rules from nothing -/

theorem whole_completes : Completes AtCloser (ofRule (chain 0)) [] :=
  ⟨nullTest, fun _ hs => whole_nullTest hs⟩

theorem sums_completes : Completes (StopsAt sumLevel) sums [] :=
  ⟨nullTest, fun _ hs => chain_nullTest (by decide) hs⟩

theorem tableRef_completes : Completes AtCloser (ofRule tableRef) [] :=
  ⟨[sample .identifier], fun s hs => (ofRule_tableRef_name rfl).trans (passes_label s hs)⟩

theorem selectRest_nullTest (h : AtCloser s) : selectRest (nullTest ++ s) = .ok s := by
  have hcolumns : ofRule selectColumns (nullTest ++ s) = .ok s := by
    rw [ofRule_selectColumns, seq_eq (whole_nullTest h), seq_eq (passes_label s h)]
    exact alt_other (h.accept? (by decide))
  refine (atToken_other rfl).trans ((alt_other rfl).trans ((seq_eq hcolumns).trans ?_))
  exact (alt_other (h.accept? (by decide))).trans (passes_refuse s h)

theorem selectRest_completes : Completes AtCloser selectRest [] :=
  ⟨nullTest, fun _ hs => selectRest_nullTest hs⟩

theorem select_completes : Completes AtCloser (ofRule select) [] := by
  rw [ofRule_select]
  exact selectRest_completes.token_seq

theorem subquery_completes : Completes T (selectRest >=> token .rightParen) [] :=
  selectRest_completes.closed (closes (by decide))

theorem members_completes : Completes T (ofRule members) [] := by
  rw [ofRule_members]
  exact subquery_completes.alt.token_seq

theorem test_completes (other : Reading) : Completes T (test other) [] := members_completes.alt

theorem whenRest_completes : Completes AtCloser whenRest [] :=
  whole_completes.closed_seq (closes (by decide)) (passes_branches.completes_seq whole_completes)

theorem caseRest_end (s : Cursor) : AtCloser (sample (.keyword .end) :: s) ∧
    (ofRule (clause .else) >=> token (.keyword .end)) (sample (.keyword .end) :: s) = .ok s := by
  have hs : AtCloser (sample (.keyword .end) :: s) := closes (by decide) s
  exact ⟨hs, (seq_eq (passes_clause (by decide) _ hs)).trans alt_sample⟩

theorem caseRest_completes : Completes T caseRest [] :=
  (whenRest_completes.seq [sample (.keyword .end)] fun s _ => caseRest_end s).alt

theorem parenRest_completes : Completes AtCloser parenRest [] := subquery_completes.alt

/-! ## Expressions

What stands behind at least one token of a rule is completed already, by induction on the number of
tokens. -/

/-- What may be left out can be completed, where at most `n` tokens are left. -/
structure Optional (n : Nat) (f : Reading) : Prop where
  passes : Passes f
  completable : ∀ c : Cursor, c.length ≤ n → Completable AtCloser f c

theorem Optional.seq {n : Nat} (hf : Optional n f) (hg : Optional n g) : Optional n (f >=> g) :=
  ⟨hf.passes.seq hg.passes, fun c hc => hg.passes.behind (hf.completable c hc) fun rest hr =>
    hg.completable rest (Nat.le_trans hr hc)⟩

/-- Expressions and queries can be completed where they have fewer tokens than `n`. -/
structure CompletableBelow (n : Nat) : Prop where
  chain : ∀ {level : Nat}, level ≤ levels → ∀ c : Cursor, c.length < n →
    Completable (Ends level) (ofRule (chain level)) c
  selectRest : ∀ c : Cursor, c.length < n → Completable AtCloser selectRest c

variable {n : Nat}

theorem CompletableBelow.sums (H : CompletableBelow n) (hc : c.length < n) :
    Completable (StopsAt sumLevel) sums c :=
  have hl : sumLevel ≤ levels := by decide
  H.chain hl c hc

theorem CompletableBelow.whole (H : CompletableBelow n) (hc : c.length < n) :
    Completable AtCloser (ofRule (Grammar.chain 0)) c :=
  (H.chain (Nat.zero_le levels) c hc).mono fun _ hs => hs.stopsAt 0

theorem CompletableBelow.subquery (H : CompletableBelow n) (hc : c.length < n) :
    Completable T (Grammar.selectRest >=> token .rightParen) c :=
  (H.selectRest c hc).closed (closes (by decide))

theorem CompletableBelow.select (H : CompletableBelow n) (hc : c.length < n) :
    Completable AtCloser (ofRule select) c := by
  rw [ofRule_select]
  exact completable_token_seq (fun rest hr => H.selectRest rest (by omega)) selectRest_completes

section

variable (H : CompletableBelow n)
include H

theorem expressions_completable (c : Cursor) (hc : c.length < n) :
    Completable AtCloser (ofRule expressions) c := by
  have hmore : Passes (alt .comma (ofRule expressions) .ok) := passes_ok.alt (by decide)
  rw [ofRule_expressions]
  refine hmore.behind (H.whole hc) fun c₁ h₁ => ?_
  exact option_completable (by decide) fun c₂ h₂ => expressions_completable c₂ (by omega)
termination_by c.length

theorem clause_completable (k : Keyword) (hk : .keyword k ∉ closings) (hc : c.length ≤ n) :
    Completable AtCloser (ofRule (clause k)) c := by
  rw [ofRule_clause]
  exact option_completable hk fun rest hr => H.whole (by omega)

/-! ### Tests -/

theorem members_completable (hc : c.length < n) : Completable T (ofRule members) c := by
  have hlist : Completes T (atToken .rightParen .error
      (ofRule expressions >=> token .rightParen)) [] := by
    refine ⟨nullTest ++ [sample .rightParen], fun s _ => ?_⟩
    have hitems : ofRule expressions (nullTest ++ sample .rightParen :: s) =
        .ok (sample .rightParen :: s) := expressions_nullTest (closes (by decide) s)
    exact (atToken_other rfl).trans ((seq_eq hitems).trans alt_sample)
  rw [ofRule_members]
  refine completable_token_seq (fun c₁ h₁ => ?_) subquery_completes.alt
  refine completable_alt (fun c₂ h₂ => H.subquery (by omega)) (fun _ => .inr ?_)
    subquery_completes.alt
  refine completable_atToken (.inl rfl) (fun _ => ?_) hlist
  exact (expressions_completable H c₁ (by omega)).closed (closes (by decide))

theorem test_completable {other : Reading} (ho : other c = .error c ∨
      Completable (StopsAt sumLevel) other c) (hc : c.length ≤ n) :
    Completable (StopsAt sumLevel) (test other) c := by
  have hand (rest : Cursor) : StopsAt sumLevel (sample (.keyword .and) :: rest) := by
    intro t ht
    cases ht
    refine ⟨nofun, fun l hl => ?_⟩
    have hl : l ≠ 1 := Nat.ne_of_gt (Nat.lt_of_lt_of_le (by decide) hl)
    simp [operatorNode?, sample, hl]
  have hbounds := sums_completes.closed_seq hand sums_completes
  refine completable_alt (fun rest hr => members_completable H (by omega)) (fun _ => .inr ?_)
    members_completes.alt
  refine completable_alt (fun c₁ h₁ => ?_) (fun _ => .inr ?_) hbounds.alt
  · exact (H.sums (by omega)).closed_seq hand (fun rest hr => H.sums (by omega)) sums_completes
  · refine completable_alt (fun rest hr => H.sums (by omega)) (fun _ => .inr ?_) sums_completes.alt
    exact completable_alt (fun rest hr => H.sums (by omega)) (fun _ => ho) sums_completes.alt

/-! ### Calls -/

theorem arguments_completable (hc : c.length < n) : Completable AtCloser (ofRule arguments) c := by
  have hlist : Completes AtCloser (atToken .rightParen .ok (ofRule expressions)) [] :=
    ⟨nullTest, fun _ hs => (atToken_other rfl).trans (expressions_nullTest hs)⟩
  rw [ofRule_arguments]
  refine completable_alt (fun _ _ => completable_stop) (fun _ => .inr ?_) completes_ok.alt
  exact completable_atToken (.inr completable_stop) (fun _ => expressions_completable H c hc) hlist

theorem callRest_completable (c : Cursor) (hc : c.length ≤ n) :
    Completable NoCall (ofRule (callRest origin)) c := by
  have hstop : Completes NoCall (ofRule (callRest origin)) [] :=
    ⟨[], fun _ hs => (callRest_stop hs).stop_eq⟩
  rw [ofRule_callRest]
  refine completable_option (fun c₁ h₁ => ?_) fun _ hs => hs
  refine (arguments_completable H (by omega)).closed_seq (closes (by decide))
    (fun c₂ h₂ => ?_) hstop
  exact callRest_completable c₂ (by omega)
termination_by c.length

/-! ### Primary forms -/

theorem whenRest_completable (hc : c.length < n) (hbranches : ∀ rest : Cursor,
      rest.length ≤ c.length → Completable AtCloser (ofRule branches) rest)
    (hp : Passes (ofRule branches)) : Completable AtCloser whenRest c := by
  refine (H.whole hc).closed_seq (closes (by decide)) (fun c₁ h₁ => ?_)
    (hp.completes_seq whole_completes)
  exact hp.behind (H.whole (by omega)) fun c₂ h₂ => hbranches c₂ (by omega)

theorem branches_completable (c : Cursor) (hc : c.length ≤ n) :
    Completable AtCloser (ofRule branches) c := by
  rw [ofRule_branches]
  refine option_completable (by decide) fun c₁ h₁ => ?_
  exact whenRest_completable H (by omega) (fun c₂ h₂ => branches_completable c₂ (by omega))
    passes_branches
termination_by c.length

theorem caseRest_completable (hc : c.length ≤ n) : Completable T caseRest c := by
  refine completable_alt (fun c₁ h₁ => ?_) (fun _ => .inl rfl) caseRest_completes
  refine (whenRest_completable H (by omega) (fun c₂ h₂ => branches_completable H c₂ (by omega))
    passes_branches).seq (fun c₂ h₂ => ?_) [sample (.keyword .end)] fun s _ => caseRest_end s
  exact (clause_completable H .else (by decide) (by omega)).closed (closes (by decide))

theorem parenRest_completable (hc : c.length < n) : Completable AtCloser parenRest c :=
  completable_alt (fun c₁ h₁ => H.subquery (by omega))
    (fun _ => .inr ((H.whole hc).closed (closes (by decide)))) parenRest_completes

theorem primary_completable (hc : c.length ≤ n) : Completable AtCloser (ofRule primary) c := by
  have hquery : Completes AtCloser (ofRule select >=> token .rightParen) [] :=
    select_completes.closed (closes (by decide))
  have hname (rest : Cursor) :
      Completable AtCloser (alt .dot (token .identifier) .ok) rest :=
    option_completable (by decide) fun _ _ => completable_token
  rw [ofRule_primary]
  refine completable_alt (fun c₁ h₁ => parenRest_completable H (by omega)) (fun _ => .inr ?_)
    parenRest_completes.alt
  refine completable_alt (fun c₁ h₁ => H.selectRest c₁ (by omega)) (fun _ => .inr ?_)
    selectRest_completes.alt
  refine completable_alt (fun c₁ h₁ => ?_) (fun _ => .inr ?_) hquery.token_seq.alt
  · refine completable_token_seq (fun c₂ h₂ => ?_) hquery
    exact (H.select (by omega)).closed (closes (by decide))
  refine completable_alt (fun c₁ h₁ => caseRest_completable H (by omega)) (fun _ => .inr ?_)
    caseRest_completes.alt
  exact completable_alt (fun c₁ _ => hname c₁) (fun _ => .inr literal_completable)
    (hname []).completes.alt

theorem called_completable (hc : c.length ≤ n) : Completable NoCall (ofRule called) c := by
  rw [ofRule_called origin]
  refine (primary_completable H hc).seq (fun c₁ h₁ => callRest_completable H c₁ (by omega))
    [sample .leftParen, sample .rightParen] fun s hs => ⟨closes (by decide) _, ?_⟩
  exact (callRest_call rfl (arguments_none rfl) rfl (callRest_stop hs)).stop_eq

theorem tested_completable (hc : c.length ≤ n) :
    Completable (StopsAt sumLevel) (ofRule tested) c := by
  have hnull (s : Cursor) (hs : StopsAt sumLevel s) : StopsAt sumLevel s ∧
      ofRule (nullTests origin) s = .ok s := ⟨hs, (nullTests_stop hs.accept?).stop_eq⟩
  have htests (other : Reading) (rest : Cursor) (ho : other rest = .error rest ∨
        Completable (StopsAt sumLevel) other rest) (hr : rest.length ≤ n) :
      Completable (StopsAt sumLevel) (test other >=> ofRule (nullTests origin)) rest :=
    (test_completable H ho hr).seq (fun c₂ _ => nullTests_completable c₂) [] hnull
  have hrefused : Completes (StopsAt sumLevel) (test .error >=> ofRule (nullTests origin)) [] :=
    (test_completes .error).seq [] hnull
  rw [ofRule_tested origin]
  refine (called_completable H hc).seq (fun c₁ h₁ => ?_)
    [sample (.keyword .is), sample (.keyword .null)]
    fun s hs => ⟨rfl, tests_nullTest _ (hs.mono (by decide))⟩
  refine completable_alt (fun c₂ h₂ => ?_) (fun _ => .inr ?_) hrefused.alt
  · exact htests .error c₂ (.inl rfl) (by omega)
  · exact htests .ok c₁ (.inr completable_stop) (by omega)

/-! ### Operators -/

theorem signed_completable (c : Cursor) (hc : c.length ≤ n) :
    Completable (StopsAt sumLevel) (ofRule signed) c := by
  have hall : Completes (StopsAt sumLevel) (ofRule signed) [] := by
    refine ⟨nullTest, fun s hs => ?_⟩
    rw [← ofRule_chain_levels]
    exact chain_nullTest (Nat.le_refl levels) (hs.mono (by decide))
  have hall' := hall
  rw [ofRule_signed] at hall' ⊢
  refine completable_alt (fun c₁ h₁ => signed_completable c₁ (by omega)) (fun _ => .inr ?_) hall'
  exact completable_alt (fun c₁ h₁ => signed_completable c₁ (by omega))
    (fun _ => .inr (tested_completable H hc)) hall.alt
termination_by c.length

theorem chainRest_completable (hl : level < levels) (hc : c.length ≤ n) :
    Completable (Ends level) (ofRule (chainRest level origin)) c := by
  have hstop (r : Cursor) (hr : Ends level r) : ofRule (chainRest level origin) r = .ok r :=
    ofRule_chainRest_stop fun t ht => (hr t ht).2 level (Nat.min_le_left _ _)
  induction hk : c.length using Nat.strongRecOn generalizing c with
  | ind k ih =>
    subst hk
    cases c with
    | nil =>
      refine completable_ok (fun r hr => hstop r fun t ht => ?_) ⟨[], hstop⟩
      rw [hr] at ht
      cases ht
    | cons t rest =>
      rw [List.length_cons] at hc ih
      cases hop : operatorNode? level t.kind with
      | none =>
        refine completable_ok (fun r hr => ofRule_chainRest_stop fun u hu => ?_) ⟨[], hstop⟩
        rw [hr] at hu
        cases hu
        exact hop
      | some node =>
        refine Completable.cons ?_ fun r => ofRule_chainRest_cons (by simp [hop])
        refine (H.chain hl rest (by omega)).seq
          (fun c₁ h₁ => ih c₁.length (by omega) (by omega) rfl) [] fun s hs => ⟨?_, hstop s hs⟩
        exact hs.mono (by omega)

theorem chain_completable (hl : level ≤ levels) (hc : c.length ≤ n) :
    Completable (Ends level) (ofRule (chain level)) c := by
  obtain ⟨k, hk⟩ := Nat.le.dest hl
  induction k generalizing level with
  | zero =>
    obtain rfl : level = levels := hk
    rw [ofRule_chain_levels]
    exact signed_completable H c hc
  | succ k ih =>
    have hlt : level < levels := by omega
    rw [ofRule_chain hlt origin]
    refine (ih hlt (by omega)).seq
      (fun c₁ h₁ => chainRest_completable H hlt (by omega)) [] fun s hs => ⟨hs.mono ?_, ?_⟩
    · omega
    · exact ofRule_chainRest_stop fun t ht => (hs t ht).2 level (Nat.min_le_left _ _)

theorem whole_completable (hc : c.length ≤ n) : Completable AtCloser (ofRule (chain 0)) c :=
  (chain_completable H (Nat.zero_le levels) hc).mono fun _ hs => hs.stopsAt 0

/-! ### Queries -/

theorem selectColumns_completable (c : Cursor) (hc : c.length ≤ n) :
    Completable AtCloser (ofRule selectColumns) c := by
  have hmore : Passes (alt .comma (ofRule selectColumns) .ok) := passes_ok.alt (by decide)
  rw [ofRule_selectColumns]
  refine (passes_label.seq hmore).behind (whole_completable H hc) fun c₁ h₁ => ?_
  refine hmore.behind label_completable fun c₂ h₂ => ?_
  exact option_completable (by decide) fun c₃ h₃ => selectColumns_completable c₃ (by omega)
termination_by c.length

theorem groupClause_completable (hc : c.length ≤ n) :
    Completable AtCloser (ofRule groupClause) c := by
  rw [ofRule_groupClause]
  refine option_completable (by decide) fun c₁ h₁ => ?_
  exact completable_token_seq (fun c₂ h₂ => expressions_completable H c₂ (by omega))
    ⟨nullTest, fun _ hs => expressions_nullTest hs⟩

theorem tableRef_completable (hc : c.length ≤ n) : Completable AtCloser (ofRule tableRef) c := by
  cases c with
  | nil => exact completable_error (ofRule_tableRef_error rfl nofun) tableRef_completes
  | cons t rest =>
    rw [List.length_cons] at hc
    by_cases hname : t.kind = .identifier
    · exact label_completable.cons fun r => ofRule_tableRef_name hname
    by_cases hquery : t.kind = .leftParen ∧ ∃ u more, rest = u :: more ∧ u.kind = .keyword .select
    · obtain ⟨ht, u, more, rfl, hu⟩ := hquery
      rw [List.length_cons] at hc
      have hrest : Completable AtCloser (selectRest >=> token .rightParen >=> ofRule label) more :=
        (H.selectRest more (by omega)).closed_seq (closes (by decide))
          (fun c₁ _ => label_completable) passes_label.completes
      exact (hrest.cons fun r => ofRule_tableRef_subquery ht hu).cons fun _ => rfl
    · refine completable_error (ofRule_tableRef_error (Cursor.accept?_other rest hname) ?_)
        tableRef_completes
      intro u more he hu
      cases he
      refine Cursor.accept?_eq_none fun v hv hselect => hquery ⟨hu, v, ?_⟩
      obtain ⟨others, rfl⟩ := List.head?_eq_some_iff.mp hv
      exact ⟨others, rfl, hselect⟩

theorem onClause_completable (kind : JoinKind) (hc : c.length ≤ n) :
    Completable AtCloser (ofRule (onClause kind)) c := by
  rw [ofRule_onClause]
  split
  · exact completable_stop
  · exact clause_completable H .on (by decide) hc

theorem joinList_completable (hc : c.length ≤ n) : Completable AtCloser (ofRule joinList) c := by
  induction hk : c.length using Nat.strongRecOn generalizing c with
  | ind k ih =>
    subst hk
    cases c with
    | nil =>
      refine completable_ok (fun r hr => ofRule_joinList_stop fun t ht => ?_)
        passes_joinList.completes
      rw [hr] at ht
      cases ht
    | cons t rest =>
      rw [List.length_cons] at hc ih
      cases hjoin : joinStart? t.kind with
      | none =>
        refine completable_ok (fun r hr => ofRule_joinList_stop fun u hu => ?_)
          passes_joinList.completes
        rw [hr] at hu
        cases hu
        exact hjoin
      | some start =>
        obtain ⟨kind, needsJoin⟩ := start
        refine Completable.cons ?_ fun r => ofRule_joinList_cons hjoin
        have hpasses := (passes_onClause kind).seq passes_joinList
        obtain ⟨more, hm⟩ := hpasses.completes_seq tableRef_completes
        have hwords : Completable (fun _ => True) (ofRule (joinWords t kind needsJoin)) rest :=
          joinWords_completable t kind needsJoin
        refine hwords.seq (fun c₁ h₁ => ?_) more fun s hs => ⟨trivial, hm s hs⟩
        refine hpasses.behind (tableRef_completable H (by omega)) fun c₂ h₂ => ?_
        refine passes_joinList.behind (onClause_completable H kind (by omega)) fun c₃ h₃ => ?_
        exact ih c₃.length (by omega) (by omega) rfl

theorem clause_optional (k : Keyword) (hk : .keyword k ∉ closings) :
    Optional n (ofRule (clause k)) :=
  ⟨passes_clause hk, fun _ hc => clause_completable H k hk hc⟩

theorem clauses_optional : Optional n (ofRule joinList >=> ofRule (clause .where) >=>
    ofRule groupClause >=> ofRule (clause .having) >=> ofRule orderClause >=>
    ofRule (clause .limit) >=> ofRule (clause .offset) >=> refuse) := by
  have hjoins : Optional n (ofRule joinList) :=
    ⟨passes_joinList, fun _ hc => joinList_completable H hc⟩
  have hgroup : Optional n (ofRule groupClause) :=
    ⟨passes_groupClause, fun _ hc => groupClause_completable H hc⟩
  have horder : Optional n (ofRule orderClause) :=
    ⟨passes_orderClause, fun _ _ => orderClause_completable⟩
  have hrefuse : Optional n refuse := ⟨passes_refuse, fun _ _ => refuse_completable⟩
  exact hjoins.seq <| (clause_optional H .where (by decide)).seq <| hgroup.seq <|
    (clause_optional H .having (by decide)).seq <| horder.seq <|
    (clause_optional H .limit (by decide)).seq <|
      (clause_optional H .offset (by decide)).seq hrefuse

theorem fromRest_completable (hc : c.length ≤ n) : Completable AtCloser fromRest c :=
  (clauses_optional H).passes.behind (tableRef_completable H hc) fun rest hr =>
    (clauses_optional H).completable rest (Nat.le_trans hr hc)

theorem selectRest_completable (hc : c.length ≤ n) : Completable AtCloser selectRest c := by
  have hfrom : Completes AtCloser (alt (.keyword .from) fromRest .error) [] :=
    ((clauses_optional H).passes.completes_seq tableRef_completes).alt
  have hend : Passes (alt (.keyword .from) fromRest refuse) := passes_refuse.alt (by decide)
  refine completable_atToken (.inl rfl) (fun _ => ?_) selectRest_completes
  refine completable_alt (fun c₁ h₁ => ?_) (fun _ => .inr ?_) hfrom.alt
  · exact completable_alt (fun c₂ h₂ => fromRest_completable H (by omega)) (fun _ => .inl rfl) hfrom
  · refine hend.behind (selectColumns_completable H c hc) fun c₁ h₁ => ?_
    exact completable_alt (fun c₂ h₂ => fromRest_completable H (by omega))
      (fun _ => .inr refuse_completable) hend.completes

end

theorem completableBelow (n : Nat) : CompletableBelow n := by
  induction n with
  | zero =>
    exact ⟨fun _ _ hc => absurd hc (Nat.not_lt_zero _), fun _ hc => absurd hc (Nat.not_lt_zero _)⟩
  | succ n ih =>
    exact ⟨fun hl _ hc => chain_completable ih hl (Nat.le_of_lt_succ hc),
      fun _ hc => selectRest_completable ih (Nat.le_of_lt_succ hc)⟩

/-! ## Statements -/

/-- Nothing but the end is left. -/
def AtEnd (c : Cursor) : Prop := ∃ t, c = [t] ∧ t.kind = .endOfText

theorem AtEnd.closer (h : AtEnd c) : AtCloser c := by
  obtain ⟨t, rfl, ht⟩ := h
  exact atCloser_cons (by rw [ht]; decide)

theorem AtEnd.isAtEnd (h : AtEnd c) : c.isAtEnd = true := by
  obtain ⟨t, rfl, ht⟩ := h
  simp [Cursor.isAtEnd, Cursor.current?, Token.isEnd, ht]

theorem isAtEnd_of_head {r : Cursor} (hr : r.head? = c.head?) : r.isAtEnd = c.isAtEnd := by
  unfold Cursor.isAtEnd Cursor.current?
  rw [hr]

theorem statementEnd_completable : Completable AtEnd statementEnd c := by
  have hnone : Completes AtEnd statementEnd [] := ⟨[], fun _ hs => if_pos hs.isAtEnd⟩
  by_cases hend : c.isAtEnd = true
  · exact completable_ok (fun r hr => if_pos ((isAtEnd_of_head hr).trans hend)) hnone
  · refine completable_token.branch (fun r hr => if_neg ?_) hnone
    rwa [isAtEnd_of_head hr]

theorem inputEnd_completable : Completable AtEnd inputEnd c := by
  have hnone : Completes AtEnd inputEnd [] := ⟨[], fun _ hs => if_pos hs.isAtEnd⟩
  by_cases hend : c.isAtEnd = true
  · exact completable_ok (fun r hr => if_pos ((isAtEnd_of_head hr).trans hend)) hnone
  · exact completable_error (if_neg hend) hnone

theorem single_completable (c : Cursor) : Completable AtEnd (ofRule single) c := by
  have hend (s : Cursor) (hs : AtEnd s) : AtEnd s ∧ inputEnd s = .ok s := ⟨hs, if_pos hs.isAtEnd⟩
  have hrest (s : Cursor) (hs : AtEnd s) : (statementEnd >=> inputEnd) s = .ok s :=
    (seq_eq (if_pos hs.isAtEnd)).trans (hend s hs).2
  have hselect : Completable AtCloser (ofRule select) c :=
    (completableBelow (c.length + 1)).select (Nat.lt_succ_self _)
  rw [ofRule_single]
  refine hselect.seq (fun c₁ _ => ?_) [] fun s hs => ⟨hs.closer, hrest s hs⟩
  exact statementEnd_completable.seq (fun c₂ _ => inputEnd_completable) [] hend

/-- Tokens without comments, closed by the only end token among them. -/
def Sealed (tokens : List Token) : Prop :=
  ∃ front last, tokens = front ++ [last] ∧ last.kind = .endOfText ∧
    ∀ t ∈ front, t.kind ≠ .comment ∧ t.kind ≠ .endOfText

theorem Sealed.ofTokens_eq {tokens : List Token} (h : Sealed tokens) :
    Cursor.ofTokens tokens = tokens := by
  obtain ⟨front, last, rfl, hlast, hfront⟩ := h
  have hkept : (front ++ [last]).filter (·.kind != .comment) = front ++ [last] := by
    refine List.filter_eq_self.mpr fun t ht => ?_
    rcases List.mem_append.mp ht with ht | ht
    · simp [(hfront t ht).1]
    · simp [List.mem_singleton.mp ht, hlast]
  unfold Cursor.ofTokens
  simp [hkept, Token.isEnd, hlast]

theorem isRead_iff {kind : TokenKind} :
    kind.isRead = true ↔ kind ≠ .comment ∧ kind ≠ .endOfText := by
  unfold TokenKind.isRead
  split <;> simp_all

theorem Sealed.bound {tokens : List Token} (h : Sealed tokens) :
    ∃ front last, tokens = front ++ [last] ∧ Cursor.Bound front last [] tokens := by
  obtain ⟨front, last, rfl, hlast, hfront⟩ := h
  refine ⟨front, last, rfl, rfl, fun t ht => isRead_iff.mpr (hfront t ht), ?_⟩
  simp [Token.isEnd, hlast]

/-- What a statement reads in front of the end is sealed by the end. -/
theorem sealed_of_ok {tokens : List Token} {last : Token} (hlast : last.kind = .endOfText)
    (h : ofRule single (tokens ++ [last]) = .ok [last]) :
    Sealed (tokens ++ [last]) ∧ ∃ step, single (tokens ++ [last]) = .ok step := by
  have hsound := single_sound builds_any (tokens ++ [last])
  unfold ofRule at h
  cases hsingle : single (tokens ++ [last]) with
  | error failure =>
    rw [hsingle] at h
    cases h
  | ok step =>
    rw [hsingle] at h
    obtain ⟨⟨read, hread, hkinds⟩, -⟩ := hsound.ok (fun _ _ _ => trivial) step hsingle
    rw [show step.rest = [last] from Except.ok.inj h] at hread
    obtain rfl := List.append_cancel_right hread
    exact ⟨⟨tokens, last, rfl, hlast, fun t ht => isRead_iff.mp (hkinds t ht)⟩, step, rfl⟩

/-- A statement that is not read breaks off at some token, which its error blames, and the tokens in
front of that one begin some statement that is read. Where a token stands more than once among the
others, the one that is blamed is the one at which the reading stops. -/
theorem errors_in_time {tokens : List Token} (hs : Sealed tokens) {failure : ParseFailure}
    (h : single (Cursor.ofTokens tokens) = .error failure) :
    ∃ k t, failure.rest = tokens.drop k ∧ tokens[k]? = some t ∧ failure.error.token? = some t ∧
      (tokens.Nodup → ∀ j, tokens[j]? = some t → j = k) ∧
      ∃ more, Sealed (tokens.take k ++ more) ∧
        ∃ step, single (Cursor.ofTokens (tokens.take k ++ more)) = .ok step := by
  rw [hs.ofTokens_eq] at h
  obtain ⟨hread, hblames⟩ :=
    (single_sound builds_any tokens).error (fun _ _ _ => trivial) failure h
  obtain ⟨front, last, htokens, hbound⟩ := hs.bound
  obtain ⟨read, left, rfl, hleft⟩ := hbound.readTo hread
  obtain ⟨t, rest, hrest⟩ := List.exists_cons_of_ne_nil hleft.ne_nil
  have hsplit : tokens = read ++ failure.rest := by
    rw [htokens, hleft.eq, List.append_assoc]
  have ht : tokens[read.length]? = some t := by simp [hsplit, hrest]
  have hstop : ofRule single tokens = .error failure.rest := congrArg stop h
  obtain ⟨read', hread', more, hmore⟩ := (single_completable tokens).error failure.rest hstop
  obtain rfl := List.append_cancel_right (hsplit.symm.trans hread')
  have hlast : last.kind = .endOfText := eq_of_beq hbound.isEnd
  have hok := hmore [last] ⟨last, rfl, hlast⟩
  rw [← List.append_assoc] at hok
  obtain ⟨hsealed, hstep⟩ := sealed_of_ok hlast hok
  have htake : tokens.take read.length = read := by rw [hsplit, List.take_left]
  refine ⟨read.length, t, ?_, ht, hblames.token t (by rw [hrest]; rfl), fun hnodup j hj => ?_,
    more ++ [last], ?_, ?_⟩
  · rw [hsplit, List.drop_left]
  · obtain ⟨hlt, -⟩ := List.getElem?_eq_some_iff.mp hj
    exact (List.getElem?_inj hlt hnodup).mp (hj.trans ht.symm)
  · rwa [htake, ← List.append_assoc]
  · rwa [htake, ← List.append_assoc, hsealed.ofTokens_eq]

/-- The tokens of `select a not b`. -/
def halfTest : List Token :=
  [⟨.keyword .select, "select", none, ⟨1, 1⟩⟩, ⟨.identifier, "a", none, ⟨1, 8⟩⟩,
    ⟨.keyword .not, "not", none, ⟨1, 10⟩⟩, ⟨.identifier, "b", none, ⟨1, 14⟩⟩,
    ⟨.endOfText, "", none, ⟨1, 15⟩⟩]

theorem halfTest_completed : Sealed halfTest ∧
    (∃ failure, single (Cursor.ofTokens halfTest) = .error failure ∧
      failure.error.token? = halfTest[3]?) ∧
    ∃ more, Sealed (halfTest.take 3 ++ more) ∧
      ∃ step, single (Cursor.ofTokens (halfTest.take 3 ++ more)) = .ok step := by
  have hs : Sealed halfTest := ⟨halfTest.take 4, _, rfl, rfl, by decide⟩
  have hfails : single (Cursor.ofTokens halfTest) = .error
      ⟨.unexpectedToken ⟨.identifier, "b", none, ⟨1, 14⟩⟩
        "Expected 'in', 'between' or 'like' after 'not'", halfTest.drop 3⟩ := by cbv
  obtain ⟨k, t, hrest, -, -, -, hcompleted⟩ := errors_in_time hs hfails
  have hk : k = 3 := by
    have hlength := congrArg List.length hrest
    simp only [List.length_drop, show halfTest.length = 5 from rfl] at hlength
    omega
  subst hk
  exact ⟨hs, ⟨_, hfails, rfl⟩, hcompleted⟩

end TableQuery.Grammar
