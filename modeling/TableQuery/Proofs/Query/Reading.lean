import TableQuery.Proofs.Evaluation.Loop
import TableQuery.Proofs.Query.Alongside
import TableQuery.Proofs.Query.Completable

/-! # The grammar as readings

Where the rules of the grammar stop, without what they build. The expression that some rules go on
from does not matter for that, so each rule is a sequence of others, or a choice between others by
the token at hand. -/

namespace TableQuery.Grammar

open Parsed Reading

/-! ## Trees do not matter -/

theorem tracks_same : Cursor.Tracks Eq Eq := by
  rintro c _ rfl
  cases c with
  | nil => exact .empty
  | cons t rest => exact .like ⟨rfl, rfl, rfl, rfl⟩ rfl

theorem likeness_any : Likeness Eq (fun _ _ => True) (fun _ _ => True) := by
  constructor <;> intros <;> trivial

theorem stop_eq_of_alongside {α β : Type} {m n : Nat} {P : α → β → Prop} {x : Parsed α m}
    {y : Parsed β n} (h : Alongside Eq P x y) : stop x = stop y := by
  cases h with
  | ok _ hr => exact congrArg Except.ok hr
  | error _ hr => exact congrArg Except.error hr

variable {level : Nat}

theorem ofRule_chainRest_eq (left left' : Expr) :
    ofRule (chainRest level left) = ofRule (chainRest level left') := by
  funext c
  have hbelow := alongsideBelow tracks_same likeness_any (16 * c.length + 1)
  exact stop_eq_of_alongside (hbelow.chainRest level trivial rfl (Nat.lt_succ_self _))

theorem ofRule_callRest_eq (callee callee' : Expr) :
    ofRule (callRest callee) = ofRule (callRest callee') := by
  funext c
  have hbelow := alongsideBelow tracks_same likeness_any (16 * c.length + 1)
  exact stop_eq_of_alongside (hbelow.callRest trivial rfl (Nat.lt_succ_self _))

theorem ofRule_nullTests_eq (subject subject' : Expr) :
    ofRule (nullTests subject) = ofRule (nullTests subject') := by
  funext c
  exact stop_eq_of_alongside (nullTests_alongside tracks_same likeness_any trivial rfl)

/-! ## Steps -/

section

variable {α β : Type} {m n : Nat} {c : Cursor} {kind : TokenKind} {expectation : String}

theorem stop_take : stop (c.take kind expectation) = token kind c := by
  unfold Cursor.take token alt
  cases c.accept? kind <;> rfl

theorem stop_take_bind {next : Step Token c.length → Parsed α n} {g : Reading}
    (h : ∀ t rest hr, stop (next ⟨t, rest, hr⟩) = g rest) :
    stop (c.take kind expectation >>= next) = (token kind >=> g) c := by
  rw [stop_bind h, stop_take]
  rfl

theorem stop_take_ok {next : Step Token c.length → Parsed α n}
    (h : ∀ t rest hr, stop (next ⟨t, rest, hr⟩) = .ok rest) :
    stop (c.take kind expectation >>= next) = token kind c := by
  rw [stop_bind_ok h, stop_take]

end

/-! ## Rules without expressions in them -/

theorem ofRule_columnRef : ofRule columnRef =
    token .identifier >=> alt .dot (token .identifier) .ok := by
  funext c
  unfold ofRule columnRef
  refine stop_take_bind fun first c₁ h₁ => ?_
  unfold alt
  dsimp only
  cases c₁.accept? .dot with
  | none => rfl
  | some step => exact stop_take_ok fun _ _ _ => rfl

theorem ofRule_label : ofRule label =
    alt (.keyword .as) (token .identifier) (alt .identifier .ok .ok) := by
  funext c
  unfold ofRule label alt
  cases c.accept? (.keyword .as) with
  | none =>
    dsimp only
    cases c.accept? .identifier <;> rfl
  | some step => exact stop_take_ok fun _ _ _ => rfl

/-- An optional direction. -/
def way : Reading := alt (.keyword .desc) .ok (alt (.keyword .asc) .ok .ok)

theorem way_eq (c : Cursor) : way c = .ok (direction c).rest := by
  unfold way direction alt
  cases c.accept? (.keyword .desc) with
  | none =>
    dsimp only
    cases c.accept? (.keyword .asc) <;> rfl
  | some step => rfl

theorem ofRule_orderKeys : ofRule orderKeys =
    ofRule columnRef >=> way >=> alt .comma (ofRule orderKeys) .ok := by
  funext c
  conv_lhs => unfold ofRule orderKeys
  refine stop_bind fun column c₁ h₁ => ?_
  show _ = (way c₁ >>= alt .comma (ofRule orderKeys) .ok)
  rw [way_eq]
  dsimp only
  generalize direction c₁ = step
  obtain ⟨way, c₂, h₂⟩ := step
  dsimp only
  show _ = alt .comma (ofRule orderKeys) .ok c₂
  unfold alt
  cases c₂.accept? .comma with
  | none => rfl
  | some step => exact stop_bind_ok fun _ _ _ => rfl

theorem ofRule_orderClause : ofRule orderClause =
    alt (.keyword .order) (token (.keyword .by) >=> ofRule orderKeys) .ok := by
  funext c
  unfold ofRule orderClause alt
  cases c.accept? (.keyword .order) with
  | none => rfl
  | some step => exact stop_take_bind fun _ _ _ => stop_bind_ok fun _ _ _ => rfl

theorem ofRule_nullTests (subject : Expr) : ofRule (nullTests subject) =
    alt (.keyword .is)
      (alt (.keyword .not) (token (.keyword .null) >=> ofRule (nullTests subject))
        (token (.keyword .null) >=> ofRule (nullTests subject))) .ok := by
  have htests (e : Expr) (c : Cursor) :
      stop (nullTests e c) = ofRule (nullTests subject) c :=
    congrFun (ofRule_nullTests_eq e subject) c
  funext c
  conv_lhs => unfold ofRule nullTests
  unfold alt
  cases c.accept? (.keyword .is) with
  | none => rfl
  | some step =>
    dsimp only
    cases step.rest.accept? (.keyword .not) with
    | none =>
      refine stop_take_bind fun _ c₁ _ => (stop_bind_ok fun _ _ _ => rfl).trans ?_
      exact htests _ c₁
    | some step =>
      refine stop_take_bind fun _ c₁ _ => (stop_bind_ok fun _ _ _ => rfl).trans ?_
      exact htests _ c₁

/-- No set operation. -/
def refuse : Reading := fun c =>
  match refuseSetOperation c with
  | .ok () => .ok c
  | .error failure => .error failure.rest

theorem stop_refuse {α : Type} {n : Nat} {c : Cursor} {next : Unit → Parsed α n}
    (h : stop (next ()) = .ok c) : stop (refuseSetOperation c >>= next) = refuse c := by
  unfold refuse
  cases refuseSetOperation c with
  | ok _ => exact h
  | error _ => rfl

theorem ofRule_joinWords (start : Token) (kind : JoinKind) (needsJoin : Bool) :
    ofRule (joinWords start kind needsJoin) =
      if needsJoin then
        if allowsOuter kind then
          alt (.keyword .outer) (token (.keyword .join)) (token (.keyword .join))
        else token (.keyword .join)
      else .ok := by
  funext c
  unfold ofRule joinWords
  cases needsJoin with
  | false => rfl
  | true =>
    simp only [if_true]
    cases allowsOuter kind with
    | false => exact stop_take_ok fun _ _ _ => rfl
    | true =>
      simp only [if_true]
      unfold alt
      cases c.accept? (.keyword .outer) with
      | none => exact stop_take_ok fun _ _ _ => rfl
      | some step => exact stop_take_ok fun _ _ _ => rfl

/-! ## Expressions -/

theorem ofRule_chain (h : level < levels) (left : Expr) : ofRule (chain level) =
    ofRule (chain (level + 1)) >=> ofRule (chainRest level left) := by
  funext c
  conv_lhs => unfold ofRule chain
  rw [if_pos h]
  refine stop_bind fun e c₁ h₁ => (stop_bind_ok fun _ _ _ => rfl).trans ?_
  exact congrFun (ofRule_chainRest_eq e left) c₁

theorem ofRule_chain_levels : ofRule (chain levels) = ofRule signed := by
  funext c
  exact congrArg stop chain_levels

theorem ofRule_chainRest_stop {left : Expr} {c : Cursor}
    (h : ∀ t, c.head? = some t → operatorNode? level t.kind = none) :
    ofRule (chainRest level left) c = .ok c := (chainRest_stop h).stop_eq

theorem ofRule_chainRest_cons {left : Expr} {t : Token} {rest : Cursor}
    (h : (operatorNode? level t.kind).isSome) : ofRule (chainRest level left) (t :: rest) =
      (ofRule (chain (level + 1)) >=> ofRule (chainRest level left)) rest := by
  obtain ⟨node, hnode⟩ := Option.isSome_iff_exists.mp h
  conv_lhs => unfold ofRule chainRest
  dsimp only
  rw [hnode]
  refine stop_bind fun e c₁ h₁ => (stop_bind_ok fun _ _ _ => rfl).trans ?_
  exact congrFun (ofRule_chainRest_eq _ left) c₁

theorem ofRule_signed : ofRule signed =
    alt (.keyword .not) (ofRule signed) (alt .minus (ofRule signed) (ofRule tested)) := by
  funext c
  conv_lhs => unfold ofRule signed
  unfold alt
  cases c.accept? (.keyword .not) with
  | some step => exact stop_bind_ok fun _ _ _ => rfl
  | none =>
    dsimp only
    cases c.accept? .minus with
    | some step => exact stop_bind_ok fun _ _ _ => rfl
    | none => rfl

/-- A bound or a pattern. -/
abbrev sums : Reading := ofRule (chain sumLevel)

/-- The tests but those for null, or something else. -/
def test (other : Reading) : Reading :=
  alt (.keyword .in) (ofRule members)
    (alt (.keyword .between) (sums >=> token (.keyword .and) >=> sums)
      (alt (.keyword .like) sums (alt (.keyword .ilike) sums other)))

theorem test_eq (subject : Expr) (other : Reading) (c : Cursor) :
    test other c = ((test? subject c).map stop).getD (other c) := by
  cases c with
  | nil =>
    unfold test?
    rfl
  | cons t rest =>
    unfold test?
    dsimp only
    split
    · next hk =>
      simp only [test, alt_head, hk, if_true]
      exact (stop_bind_ok fun _ _ _ => rfl).symm
    · next hk =>
      simp only [test, alt_head, hk, TokenKind.keyword.injEq, reduceCtorEq, if_true, if_false]
      refine (stop_bind fun _ c₁ _ => ?_).symm
      exact stop_take_bind fun _ _ _ => stop_bind_ok fun _ _ _ => rfl
    · next hk =>
      simp only [test, alt_head, hk, TokenKind.keyword.injEq, reduceCtorEq, if_true, if_false]
      exact (stop_bind_ok fun _ _ _ => rfl).symm
    · next hk =>
      simp only [test, alt_head, hk, TokenKind.keyword.injEq, reduceCtorEq, if_true, if_false]
      exact (stop_bind_ok fun _ _ _ => rfl).symm
    · next hin hbetween hlike hilike =>
      simp only [test, alt_head, if_neg hin, if_neg hbetween, if_neg hlike, if_neg hilike]
      rfl

theorem ofRule_tested (subject : Expr) : ofRule tested =
    ofRule called >=> alt (.keyword .not) (test .error >=> ofRule (nullTests subject))
      (test .ok >=> ofRule (nullTests subject)) := by
  have htests (e : Expr) (c : Cursor) :
      stop (nullTests e c) = ofRule (nullTests subject) c :=
    congrFun (ofRule_nullTests_eq e subject) c
  funext c
  conv_lhs => unfold ofRule tested
  refine stop_bind fun callee c₁ h₁ => ?_
  dsimp only
  cases hnot : c₁.accept? (.keyword .not) with
  | some step =>
    rw [alt, hnot]
    dsimp only
    show _ = (test .error step.rest >>= ofRule (nullTests subject))
    rw [test_eq callee]
    cases test? callee step.rest with
    | none => rfl
    | some outcome =>
      refine stop_bind fun e c₂ h₂ => (stop_bind_ok fun _ _ _ => rfl).trans ?_
      exact htests _ c₂
  | none =>
    rw [alt, hnot]
    dsimp only
    show _ = (test .ok c₁ >>= ofRule (nullTests subject))
    rw [test_eq callee]
    cases test? callee c₁ with
    | none =>
      refine (stop_bind_ok fun _ _ _ => rfl).trans ?_
      exact htests _ c₁
    | some outcome =>
      refine stop_bind fun e c₂ h₂ => (stop_bind_ok fun _ _ _ => rfl).trans ?_
      exact htests _ c₂

/-! ## Queries -/

/-- What follows `from`. -/
def fromRest : Reading :=
  ofRule tableRef >=> ofRule joinList >=> ofRule (clause .where) >=> ofRule groupClause >=>
    ofRule (clause .having) >=> ofRule orderClause >=> ofRule (clause .limit) >=>
    ofRule (clause .offset) >=> refuse

/-- What follows `select`. -/
def selectRest : Reading :=
  atToken (.keyword .distinct) .error
    (alt .star (alt (.keyword .from) fromRest .error)
      (ofRule selectColumns >=> alt (.keyword .from) fromRest refuse))

theorem selectColumns_ne_nil {c : Cursor} {step : Step (List SelectColumn) c.length}
    (h : selectColumns c = .ok step) : step.value ≠ [] := by
  unfold selectColumns at h
  obtain ⟨first, -, h⟩ := exists_ok_of_bind h
  obtain ⟨name, -, h⟩ := exists_ok_of_bind h
  dsimp only at h
  split at h
  · cases h
    exact List.cons_ne_nil _ _
  · obtain ⟨others, -, h⟩ := exists_ok_of_bind h
    cases h
    exact List.cons_ne_nil _ _

theorem ofRule_select : ofRule select = token (.keyword .select) >=> selectRest := by
  funext c
  unfold ofRule select
  refine stop_take_bind fun start c₁ h₁ => ?_
  unfold selectRest atToken
  dsimp only
  split
  · rfl
  · refine (stop_bind_value (g := fun columns => alt (.keyword .from) fromRest
      (if columns.isEmpty then .error else refuse)) fun columns c₂ h₂ => ?_).trans ?_
    · unfold alt
      dsimp only
      cases c₂.accept? (.keyword .from) with
      | none =>
        cases columns.isEmpty with
        | true => rfl
        | false => exact stop_refuse rfl
      | some step =>
        exact stop_bind fun _ _ _ => stop_bind fun _ _ _ => stop_bind fun _ _ _ =>
          stop_bind fun _ _ _ => stop_bind fun _ _ _ => stop_bind fun _ _ _ =>
            stop_bind fun _ _ _ => stop_bind fun _ _ _ => stop_refuse rfl
    · unfold selectList
      cases hstar : c₁.accept? .star with
      | some step =>
        rw [alt, hstar]
        rfl
      | none =>
        rw [alt_other hstar]
        show _ = (stop (selectColumns c₁) >>= alt (.keyword .from) fromRest refuse)
        cases hcolumns : selectColumns c₁ with
        | error failure => rfl
        | ok step =>
          have hne : ¬step.value.isEmpty = true := by simpa using selectColumns_ne_nil hcolumns
          simp only [stopWith, if_neg hne]
          rfl

theorem ofRule_select_cons {t : Token} {rest : Cursor} (ht : t.kind = .keyword .select) :
    ofRule select (t :: rest) = selectRest rest := by
  rw [ofRule_select]
  show (alt _ _ _ (t :: rest) >>= selectRest) = _
  rw [alt_cons ht]
  rfl

/-- A query if `select` is at hand, and something else behind it or instead of it. -/
theorem select_or (f g : Reading) (c : Cursor) :
    alt (.keyword .select) (selectRest >=> f) g c =
      if c.at? (.keyword .select) then (ofRule select >=> f) c else g c := by
  cases h : c.accept? (.keyword .select) with
  | none => rw [alt_other h, if_neg (by simp [Cursor.at?_eq_false h])]
  | some step =>
    obtain ⟨t, rest, _⟩ := step
    obtain ⟨ht, rfl⟩ := Cursor.accept?_eq_some h
    rw [alt_cons ht, if_pos (Cursor.at?_cons rest ht)]
    exact congrArg (· >>= f) (ofRule_select_cons ht).symm

/-! ## Lists and calls -/

theorem ofRule_expressions : ofRule expressions =
    ofRule (chain 0) >=> alt .comma (ofRule expressions) .ok := by
  funext c
  conv_lhs => unfold ofRule expressions
  refine stop_bind fun e c₁ h₁ => ?_
  unfold alt
  dsimp only
  cases c₁.accept? .comma with
  | none => rfl
  | some step => exact stop_bind_ok fun _ _ _ => rfl

theorem ofRule_members : ofRule members =
    token .leftParen >=> alt (.keyword .select) (selectRest >=> token .rightParen)
      (atToken .rightParen .error (ofRule expressions >=> token .rightParen)) := by
  funext c
  unfold ofRule members
  refine stop_take_bind fun _ c₁ _ => ?_
  rw [select_or]
  unfold atToken
  dsimp only
  split
  · exact stop_bind fun _ _ _ => stop_take_ok fun _ _ _ => rfl
  · split
    · rfl
    · exact stop_bind fun _ _ _ => stop_take_ok fun _ _ _ => rfl

theorem ofRule_arguments : ofRule arguments =
    alt .star .ok (atToken .rightParen .ok (ofRule expressions)) := by
  funext c
  unfold ofRule arguments alt atToken
  cases c.accept? .star with
  | some step => rfl
  | none =>
    dsimp only
    split
    · rfl
    · exact stop_bind_ok fun _ _ _ => rfl

theorem ofRule_callRest (callee : Expr) : ofRule (callRest callee) =
    alt .leftParen (ofRule arguments >=> token .rightParen >=> ofRule (callRest callee)) .ok := by
  funext c
  conv_lhs => unfold ofRule callRest
  unfold alt
  cases c.accept? .leftParen with
  | none => rfl
  | some step =>
    refine stop_bind fun args c₁ h₁ => stop_take_bind fun _ c₂ _ => ?_
    refine (stop_bind_ok fun _ _ _ => rfl).trans ?_
    exact congrFun (ofRule_callRest_eq _ callee) c₂

theorem ofRule_called (callee : Expr) :
    ofRule called = ofRule primary >=> ofRule (callRest callee) := by
  funext c
  unfold ofRule called
  refine stop_bind fun e c₁ h₁ => (stop_bind_ok fun _ _ _ => rfl).trans ?_
  exact congrFun (ofRule_callRest_eq e callee) c₁

/-! ## Primary forms -/

/-- One branch of a case expression behind its `when`, and the others. -/
def whenRest : Reading :=
  ofRule (chain 0) >=> token (.keyword .then) >=> ofRule (chain 0) >=> ofRule branches

theorem ofRule_branches : ofRule branches = alt (.keyword .when) whenRest .ok := by
  funext c
  conv_lhs => unfold ofRule branches
  unfold alt whenRest
  cases c.accept? (.keyword .when) with
  | none => rfl
  | some step =>
    exact stop_bind fun _ _ _ => stop_take_bind fun _ _ _ => stop_bind fun _ _ _ =>
      stop_bind_ok fun _ _ _ => rfl

theorem ofRule_clause (k : Keyword) :
    ofRule (clause k) = alt (.keyword k) (ofRule (chain 0)) .ok := by
  funext c
  unfold ofRule clause alt
  cases c.accept? (.keyword k) with
  | none => rfl
  | some step => exact stop_bind_ok fun _ _ _ => rfl

/-- What stands between the brackets of a primary form. -/
def parenRest : Reading :=
  alt (.keyword .select) (selectRest >=> token .rightParen) (ofRule (chain 0) >=> token .rightParen)

/-- What follows `case`. -/
def caseRest : Reading :=
  alt (.keyword .when) (whenRest >=> ofRule (clause .else) >=> token (.keyword .end)) .error

/-- A literal. -/
def literal : Reading :=
  alt .number .ok (alt .string .ok (alt (.keyword .true) .ok (alt (.keyword .false) .ok
    (token (.keyword .null)))))

theorem branches_ne_nil {c : Cursor} {step : Step (List Expr × List Expr) (c.length + 1)}
    (h : branches c = .ok step) (hc : c.accept? (.keyword .when) ≠ none) : step.value.1 ≠ [] := by
  unfold branches at h
  split at h
  · next ha => exact absurd ha hc
  · obtain ⟨condition, -, h⟩ := exists_ok_of_bind h
    obtain ⟨_, -, h⟩ := exists_ok_of_bind h
    obtain ⟨result, -, h⟩ := exists_ok_of_bind h
    obtain ⟨others, -, h⟩ := exists_ok_of_bind h
    cases h
    exact List.cons_ne_nil _ _

/-- What follows `case`, as it is read: whether there is a branch is seen behind all of them. -/
theorem caseRest_eq (c : Cursor) : caseRest c = stopWith (branches c) fun b =>
    if b.1.isEmpty then .error else ofRule (clause .else) >=> token (.keyword .end) := by
  unfold caseRest
  cases hwhen : c.accept? (.keyword .when) with
  | none =>
    have hnone : branches c = .ok ⟨([], []), c, c.length_lt_succ⟩ := by
      unfold branches
      rw [hwhen]
      rfl
    rw [alt_other hwhen, hnone]
    rfl
  | some step =>
    have hbranch : stop (branches c) = whenRest step.rest := by
      refine (congrFun ofRule_branches c).trans ?_
      rw [alt, hwhen]
    rw [alt, hwhen]
    show (whenRest step.rest >>= (ofRule (clause .else) >=> token (.keyword .end))) = _
    rw [← hbranch]
    cases hbranches : branches c with
    | error failure => rfl
    | ok last =>
      have hne : ¬last.value.1.isEmpty = true := by
        simpa using branches_ne_nil hbranches (by simp [hwhen])
      simp only [stopWith, if_neg hne]
      rfl

theorem ofRule_primary : ofRule primary =
    alt .leftParen parenRest (alt (.keyword .select) selectRest
      (alt (.keyword .exists) (token .leftParen >=> ofRule select >=> token .rightParen)
        (alt (.keyword .case) caseRest
          (alt .identifier (alt .dot (token .identifier) .ok) literal)))) := by
  funext c
  unfold ofRule primary
  cases c with
  | nil => rfl
  | cons t rest =>
    dsimp only
    split
    · next hk =>
      rw [alt_cons hk, parenRest, select_or]
      split
      · exact stop_bind fun _ _ _ => stop_take_ok fun _ _ _ => rfl
      · exact stop_bind fun _ _ _ => stop_take_ok fun _ _ _ => rfl
    · next hk =>
      simp only [alt_head, hk, reduceCtorEq, if_true, if_false]
      exact (stop_bind_ok fun _ _ _ => rfl).trans (ofRule_select_cons hk)
    · next hk =>
      simp only [alt_head, hk, TokenKind.keyword.injEq, reduceCtorEq, if_true, if_false]
      exact stop_take_bind fun _ _ _ => stop_bind fun _ _ _ => stop_take_ok fun _ _ _ => rfl
    · next hk =>
      simp only [alt_head, hk, TokenKind.keyword.injEq, reduceCtorEq, if_true, if_false]
      rw [caseRest_eq]
      refine stop_bind_value fun b c₁ h₁ => ?_
      dsimp only
      split
      · rfl
      · exact stop_bind fun _ _ _ => stop_take_ok fun _ _ _ => rfl
    · next hk =>
      simp only [alt_head, hk, reduceCtorEq, if_true, if_false]
      refine (stop_bind_ok fun _ _ _ => rfl).trans ((congrFun ofRule_columnRef _).trans ?_)
      show (alt _ _ _ (t :: rest) >>= _) = _
      rw [alt_cons hk]
      rfl
    · next hk =>
      simp only [literal, token, alt_head, hk, TokenKind.keyword.injEq, reduceCtorEq, if_false]
      rfl
    · next hk =>
      simp only [literal, token, alt_head, hk, TokenKind.keyword.injEq, reduceCtorEq, if_false]
      rfl
    iterate 5
      next hk =>
        simp only [literal, token, alt_head, hk, TokenKind.keyword.injEq, reduceCtorEq, if_true,
          if_false]
        rfl
    · next hparen hselect hexists hcase hname _ _ hnumber hstring htrue hfalse hnull =>
      simp only [literal, token, alt_head, if_neg hparen, if_neg hselect, if_neg hexists,
        if_neg hcase, if_neg hname, if_neg hnumber, if_neg hstring, if_neg htrue, if_neg hfalse,
        if_neg hnull]
      rfl

/-! ## Clauses -/

theorem ofRule_selectColumns : ofRule selectColumns =
    ofRule (chain 0) >=> ofRule label >=> alt .comma (ofRule selectColumns) .ok := by
  funext c
  conv_lhs => unfold ofRule selectColumns
  refine stop_bind fun e c₁ h₁ => stop_bind fun name c₂ h₂ => ?_
  unfold alt
  dsimp only
  cases c₂.accept? .comma with
  | none => rfl
  | some step => exact stop_bind_ok fun _ _ _ => rfl

theorem ofRule_groupClause : ofRule groupClause =
    alt (.keyword .group) (token (.keyword .by) >=> ofRule expressions) .ok := by
  funext c
  unfold ofRule groupClause alt
  cases c.accept? (.keyword .group) with
  | none => rfl
  | some step => exact stop_take_bind fun _ _ _ => stop_bind_ok fun _ _ _ => rfl

theorem ofRule_tableRef_name {t : Token} {rest : Cursor} (ht : t.kind = .identifier) :
    ofRule tableRef (t :: rest) = ofRule label rest := by
  unfold ofRule tableRef
  dsimp only
  rw [if_pos ht]
  exact stop_bind_ok fun _ _ _ => rfl

theorem ofRule_tableRef_subquery {t u : Token} {rest : Cursor} (ht : t.kind = .leftParen)
    (hu : u.kind = .keyword .select) : ofRule tableRef (t :: u :: rest) =
      (selectRest >=> token .rightParen >=> ofRule label) rest := by
  conv_lhs => unfold ofRule tableRef
  dsimp only
  rw [if_neg (by simp [ht]), if_pos ⟨ht, Cursor.at?_cons rest hu⟩]
  refine (stop_bind (g := token .rightParen >=> ofRule label) fun _ _ _ => ?_).trans ?_
  · exact stop_take_bind fun _ _ _ => stop_bind_ok fun _ _ _ => rfl
  · exact congrArg (· >>= (token .rightParen >=> ofRule label)) (ofRule_select_cons hu)

theorem ofRule_tableRef_error {c : Cursor} (hname : c.accept? .identifier = none)
    (hquery : ∀ t rest, c = t :: rest → t.kind = .leftParen →
      Cursor.accept? rest (.keyword .select) = none) : ofRule tableRef c = .error c := by
  unfold ofRule tableRef
  cases c with
  | nil => rfl
  | cons t rest =>
    have hk : t.kind ≠ .identifier := Cursor.accept?_eq_none_iff.mp hname t rfl
    have hopen : ¬(t.kind = .leftParen ∧ Cursor.at? rest (.keyword .select) = true) := by
      rintro ⟨ht, hselect⟩
      rw [Cursor.at?_eq_false (hquery t rest rfl ht)] at hselect
      cases hselect
    dsimp only
    rw [if_neg hk, if_neg hopen]
    rfl

theorem ofRule_joinList_stop {c : Cursor}
    (h : ∀ t, c.head? = some t → joinStart? t.kind = none) : ofRule joinList c = .ok c :=
  (joinList_stop h).stop_eq

theorem ofRule_joinList_cons {t : Token} {rest : Cursor} {kind : JoinKind} {needsJoin : Bool}
    (h : joinStart? t.kind = some (kind, needsJoin)) : ofRule joinList (t :: rest) =
      (ofRule (joinWords t kind needsJoin) >=> ofRule tableRef >=> ofRule (onClause kind) >=>
        ofRule joinList) rest := by
  conv_lhs => unfold ofRule joinList
  dsimp only
  rw [h]
  exact stop_bind fun _ _ _ => stop_bind fun _ _ _ => stop_bind fun _ _ _ =>
    stop_bind_ok fun _ _ _ => rfl

theorem ofRule_onClause (kind : JoinKind) :
    ofRule (onClause kind) = if kind = .cross then .ok else ofRule (clause .on) := by
  funext c
  unfold ofRule onClause
  split <;> rfl

/-! ## Statements -/

/-- The end, or a semicolon. -/
def statementEnd : Reading := fun c => if c.isAtEnd then .ok c else token .semicolon c

/-- Nothing but the end. -/
def inputEnd : Reading := fun c => if c.isAtEnd then .ok c else .error c

theorem ofRule_single : ofRule single = ofRule select >=> statementEnd >=> inputEnd := by
  funext c
  unfold ofRule single
  have hstatement : stop (statement c) = (ofRule select >=> statementEnd) c := by
    unfold statement
    refine stop_bind fun query c₁ h₁ => ?_
    unfold statementEnd
    dsimp only
    split
    · rfl
    · exact stop_take_ok fun _ _ _ => rfl
  refine (stop_bind (g := inputEnd) fun query c₁ h₁ => ?_).trans ?_
  · unfold inputEnd
    dsimp only
    split <;> rfl
  · rw [hstatement]
    exact bind_assoc _ _ _

end TableQuery.Grammar
