import Mathlib
import TableQuery.Proofs.Query.Balance

/-! # Precedence

Each form of expressions has a rank, from `or`, which binds loosest, to the primary forms. An operand
stands without brackets only where its rank is high enough, so the ranks say which of several
operators is applied first. -/

namespace TableQuery

/-! ## Ranks -/

def Operator.rank : Operator → Nat
  | .equal | .notEqual => 2
  | .less | .lessOrEqual | .greater | .greaterOrEqual => 3
  | .plus | .minus => 4
  | .times | .divide | .modulo => 5

def Connective.rank : Connective → Nat
  | .or => 0
  | .and => 1

/-- How tightly the outermost part of an expression binds. A `not` around a test is its opposite and
ranks with it, since the tree of `not x is null` is that of `x is not null`. -/
def Expr.rank : Expr → Nat
  | .logical _ op _ _ => op.rank
  | .binary _ op _ _ => op.rank
  | .not _ operand => if operand.isTest then 7 else 6
  | .negate .. => 6
  | .member .. | .between .. | .like .. | .isNull .. => 7
  | .call .. => 8
  | .literal .. | .column _ | .case .. | .group .. | .existence .. | .subquery _ => 9

/-- The operands of the expression bind tightly enough for their places. Between brackets, commas and
keywords any expression may stand. -/
def Expr.OperandsRanked : Expr → Prop
  | .logical _ op left right => op.rank ≤ left.rank ∧ op.rank < right.rank
  | .binary _ op left right => op.rank ≤ left.rank ∧ op.rank < right.rank
  | .not _ operand | .negate _ operand => 6 ≤ operand.rank
  | .member _ subject _ => 8 ≤ subject.rank
  | .between _ subject low high => 8 ≤ subject.rank ∧ 4 ≤ low.rank ∧ 4 ≤ high.rank
  | .like _ subject pattern _ => 8 ≤ subject.rank ∧ 4 ≤ pattern.rank
  | .isNull _ subject => 7 ≤ subject.rank
  | .call _ callee _ _ => 8 ≤ callee.rank
  | .literal .. | .column _ | .case .. | .group .. | .existence .. | .subquery _ => True

/-! ## What the rules build -/

namespace Grammar

/-- The levels of the grammar are the ranks of their operators. -/
theorem rank_node {level : Nat} {kind : TokenKind} {node : Position → Expr → Expr → Expr}
    (h : operatorNode? level kind = some node) (pos : Position) (left right : Expr) :
    (node pos left right).rank = level ∧
      ((node pos left right).OperandsRanked ↔ level ≤ left.rank ∧ level < right.rank) := by
  unfold operatorNode? at h
  split at h <;> cases h <;> exact ⟨rfl, Iff.rfl⟩

/-- Each rule builds expressions of at least the rank that is its level, of operands that its own
operands' levels make tight enough. -/
theorem builds_ranked {N : String → Prop} :
    Builds N (fun level expr => level ≤ expr.rank ∧ expr.OperandsRanked) fun _ => True where
  loosen h := ⟨Nat.le_of_succ_le h.1, h.2⟩
  operator pos hn _ hl hr := by
    obtain ⟨hrank, hranked⟩ := rank_node hn pos _ _
    exact ⟨Nat.le_of_eq hrank.symm, hranked.mpr ⟨hl.1, hr.1⟩⟩
  not {operand} pos h := by
    -- In front of a test, `not` ranks even higher than its level.
    have hrank : (Expr.not pos operand).rank = if operand.isTest then 7 else 6 := rfl
    refine ⟨?_, h.1⟩
    rw [hrank]
    split <;> decide
  negate _ h := ⟨Nat.le_refl _, h.1⟩
  member _ hs _ _ := ⟨Nat.le_refl _, hs.1⟩
  between _ hs hl hh := ⟨Nat.le_refl _, hs.1, hl.1, hh.1⟩
  like _ _ hs hp := ⟨Nat.le_refl _, hs.1, hp.1⟩
  isNull _ _ h := ⟨Nat.le_refl _, h.1⟩
  refused pos ht h := by
    have hrank : (Expr.not pos _).rank = testLevel := if_pos ht
    exact ⟨Nat.le_of_eq hrank.symm, Nat.le_of_succ_le h.1⟩
  call _ _ hc _ := ⟨Nat.le_refl _, hc.1⟩
  literal _ _ := ⟨Nat.le_refl _, trivial⟩
  column _ := ⟨Nat.le_refl _, trivial⟩
  group _ _ := ⟨Nat.le_refl _, trivial⟩
  existence _ _ := ⟨Nat.le_refl _, trivial⟩
  subquery _ := ⟨Nat.le_refl _, trivial⟩
  case _ _ _ _ _ _ := ⟨Nat.le_refl _, trivial⟩
  select _ _ _ _ := trivial

end Grammar

open Grammar

/-- In an expression that is read, every operand binds tightly enough for its place, at every depth
and in nested queries too: operators of one rank group to the left, and those of a higher rank are
applied first. -/
theorem Expr.operands_ranked_everywhere {c : Cursor} {step : Step Expr c.length}
    (h : expression c = .ok step) : step.value.Everywhere OperandsRanked := by
  have hsound := expression_sound (N := fun _ => True)
    (builds_ranked.everywhere fun {level expr} hp => hp.2) c
  exact ((hsound.ok (fun _ _ _ => trivial) step h).2).2

/-- A `not` in front is applied before a sum, differences group to the left, and a null test is
applied before all of them. -/
theorem Expr.not_ranked_above_sums :
    let column (place : Nat) (name : String) : Expr := .column ⟨⟨1, place⟩, none, name⟩
    ∃ (c : Cursor) (step : Step Expr c.length),
      Cursor.ofText? "not a + b - c is null" = .ok c ∧ expression c = .ok step ∧
      step.value = .binary ⟨1, 11⟩ .minus
        (.binary ⟨1, 7⟩ .plus (.not ⟨1, 1⟩ (column 5 "a")) (column 9 "b"))
        (.isNull ⟨1, 15⟩ (column 13 "c")) ∧
      step.value.Everywhere OperandsRanked := by
  intro column
  have hread : Expr.ofText? "not a + b - c is null" = .ok (.binary ⟨1, 11⟩ .minus
      (.binary ⟨1, 7⟩ .plus (.not ⟨1, 1⟩ (column 5 "a")) (column 9 "b"))
      (.isNull ⟨1, 15⟩ (column 13 "c"))) := by cbv
  obtain ⟨c, step, hc, hstep, hvalue⟩ := read_ok hread
  exact ⟨c, step, hc, hstep, hvalue, operands_ranked_everywhere hstep⟩

end TableQuery
