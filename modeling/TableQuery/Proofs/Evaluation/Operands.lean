import TableQuery.Proofs.Evaluation.Alike
import TableQuery.Proofs.Evaluation.Tasks

/-! # Expressions without queries

An expression with no query in it binds no tables and takes no labels. All it depends on are the
context and the frames; how far the counter for labels has come does not matter. -/

namespace TableQuery

open Eval

namespace Expr

/-- The property holds of the expression and of its operands, at whatever depth. Neither callees nor
queries are operands. -/
inductive Throughout (P : Expr → Prop) : Expr → Prop where
  | intro {expr : Expr} (here : P expr) (operands : ∀ part ∈ expr.operands, part.Throughout P) :
    Throughout P expr

/-- No query stands in the expression. -/
def QueryFree (expr : Expr) : Prop := expr.Throughout fun part => part.query? = none

variable {P : Expr → Prop} {expr part : Expr} {m : Mention}

theorem Throughout.here (h : expr.Throughout P) : P expr := by
  cases h
  assumption

theorem Throughout.operand (h : expr.Throughout P) (hp : part ∈ expr.operands) :
    part.Throughout P := by
  cases h with
  | intro _ operands => exact operands part hp

/-- A mention is the column itself, or it stands in an operand or in a query. -/
theorem mem_mentions (h : m ∈ expr.mentions) :
    (∃ ref, m = .column ref) ∨ (∃ part ∈ expr.operands, m ∈ part.mentions) ∨
      expr.query? ≠ none := by
  cases expr with
  | literal => simp [mentions] at h
  | column ref => exact .inl ⟨ref, by simpa [mentions] using h⟩
  | existence | subquery => exact .inr (.inr (by simp [query?]))
  | _ =>
    simp only [mentions, List.mem_append, mem_eachMentions, mem_optionMentions] at h
    grind [operands]

theorem QueryFree.mentions (h : expr.QueryFree) : ∀ m ∈ expr.mentions, ∃ ref, m = .column ref := by
  induction h with
  | intro here _ ih =>
    -- a mention of the node itself, or else one of an operand
    intro m hm
    rcases mem_mentions hm with href | ⟨part, hp, hm⟩ | hq
    · exact href
    · exact ih part hp m hm
    · exact absurd here hq

end Expr

/-- All names, but no generated labels. -/
def Vocabulary.written : Vocabulary := ⟨fun _ => True, fun _ => True, False⟩

variable {env : Environment} {s t : State}

theorem Expr.QueryFree.fits {expr : Expr} (h : expr.QueryFree) :
    ∀ m ∈ expr.mentions, Vocabulary.written.Fits m := by
  intro m hm
  obtain ⟨ref, rfl⟩ := h.mentions m hm
  exact fun _ _ => trivial

theorem State.alike_of_scope (hscope : t.scope = s.scope) (hsource : t.groupSource = s.groupSource)
    (stem : String) : s.Alike .written stem t where
  innermost := by rw [hscope]; exact ⟨rfl, fun _ _ => rfl⟩
  outer := by
    rw [hscope]
    exact ⟨fun _ _ => rfl, fun _ _ => rfl, fun _ _ => rfl, False.elim, False.elim⟩
  groupSource := by
    rw [hsource]
    cases s.groupSource with
    | none => exact .none
    | some source => exact .some ⟨rfl, fun _ _ => rfl⟩

/-- The value of an expression without queries does not depend on the counter for labels. -/
theorem Expr.QueryFree.outcome {expr : Expr} (h : expr.QueryFree) (context : Context)
    (hscope : t.scope = s.scope) (hsource : t.groupSource = s.groupSource) :
    ((evaluate env expr context).runFrom t).1 = ((evaluate env expr context).runFrom s).1 :=
  have hagrees := (alikeCompositional .written env).outer_evaluate expr h.fits context
  (hagrees.1 s t (State.alike_of_scope hscope hsource _)).1.symm

end TableQuery
