import TableQuery.Proofs.Engine.Uniform
import TableQuery.Proofs.Evaluation.Closed
import TableQuery.Proofs.Evaluation.Items

/-! # Closed frames and distinct items in every session

Whatever a caller binds and asks for, all frames are closed at all times, and the tables that a
query joins have different names. -/

namespace TableQuery

open Eval

namespace Engine

/-- Between two calls the only frame is closed. -/
theorem closed_session (settings : Settings) (functions : Registry)
    (bindings : List (String × Table)) (calls : List Call) :
    (session settings functions bindings calls).state.Closed := by
  have hrests := rests_session settings functions bindings calls
  refine ⟨?_, ?_⟩
  · rw [hrests.scope]
    exact List.forall_mem_singleton.mpr (Frame.holds_bindAll (allBindings bindings calls)).closed
  · rw [hrests.groupSource]
    exact forall_of_eq_none rfl

/-- Every change of a state keeps its frames closed, and so all frames are closed in every session,
after every stage of every query and wherever anything is evaluated, in nested queries too. The
from item and the joins of a query read tables with different names. So a reference with a
qualifier is ambiguous on joined rows only if one row of one table has two columns for it, provided
that the columns of the first table are its own. If all tables that a caller binds are made of
values, that is always so, and one table has the field twice. -/
theorem frames_closed_items_distinct (settings : Settings) (functions : Registry)
    (bindings : List (String × Table)) (calls : List Call) :
    (∀ s : State, s.Closed → s.StepsClosed) ∧
    (session settings functions bindings calls).state.Closed ∧
    (∀ top query s, Nested ⟨settings, functions⟩ (fun _ => True) top
      (session settings functions bindings calls).state query s →
      query.ClosedStages ⟨settings, functions⟩ s ∧ query.DistinctItems ⟨settings, functions⟩ s ∧
        query.AmbiguousOnlyBy ⟨settings, functions⟩ s Table.OwnsColumns Table.Repeats) ∧
    ((∀ binding ∈ allBindings bindings calls, binding.2.FromValues) →
      ∀ top query s, Nested ⟨settings, functions⟩ (fun _ => True) top
        (session settings functions bindings calls).state query s →
        query.AmbiguousOnlyBy ⟨settings, functions⟩ s (fun _ => True) fun item field =>
          2 ≤ item.fields.count field) := by
  have hclosed := closed_session settings functions bindings calls
  refine ⟨fun s hs => hs.steps, hclosed, fun top query s hn => ?_, fun hb top query s hn => ?_⟩
  · exact ⟨query.closedStages _ (hn.closedState hclosed), query.distinctItems _ s,
      query.ambiguousOnlyBy_repeats _ s⟩
  · have hs := uniform_session settings functions bindings calls hb
    exact query.ambiguousOnlyBy_count _ (hn.uniform hs)

/-- In `select a.x from t a cross join u b` the reference is ambiguous on the joined row, since `t` has
the field twice. -/
theorem repeated_field_ambiguous :
    let left := Table.ofFields "t" ["x", "x"]
    let right := Table.ofFields "u" ["y"]
    let scope : Scope := ⟨⟨[], [("a", "t"), ("b", "b")]⟩, []⟩
    (∀ binding ∈ allBindings [("t", left), ("u", right)] [], binding.2.FromValues) ∧
      ∀ row ∈ (left.crossJoin (right.renamed "b") "t_b_cross_joined").rows,
        scope.resolve ⟨.start, some "a", "x"⟩ row = .error (.ambiguousColumn "t.x") ∧
          ∃ item ∈ [left, right.renamed "b"], 2 ≤ item.fields.count "x" := by
  intro left right scope
  let ref : ColumnRef := ⟨.start, some "a", "x"⟩
  let source : TableRef := ⟨.start, .table "t", some "a"⟩
  let join : Join := ⟨.start, .cross, ⟨.start, .table "u", some "b"⟩, none⟩
  let query : Select :=
    ⟨.start, false, [⟨.column ref, none⟩], some source, [join], none, [], none, [], none, none⟩
  let bindings := [("t", left), ("u", right)]
  have hb : ∀ binding ∈ allBindings bindings [], binding.2.FromValues := by
    intro binding hm
    rcases List.mem_cons.mp hm with rfl | hm
    · exact ⟨"t", ["x", "x"], [[.null, .null]], rfl⟩
    · cases List.mem_singleton.mp hm
      exact ⟨"u", ["y"], [[.null]], rfl⟩
  have h := (frames_closed_items_distinct .standard .standard bindings []).2.2.2 hb query query _
    .top
  let root : Frame := (session .standard .standard bindings []).state.scope.innermost
  let one : State := ⟨⟨Frame.empty.bind left "a", [root]⟩, none, 0⟩
  let both : State := ⟨⟨(Frame.empty.bind left "a").bind (right.renamed "b") "b", [root]⟩, none, 0⟩
  have hsource : Returns (evaluateTableRef ⟨.standard, .standard⟩ false source)
      (session .standard .standard bindings []).state.opened left one := by
    cbv
  have hright : Returns (evaluateTableRef ⟨.standard, .standard⟩ true join.table) one
      (right.renamed "b") both := by
    cbv
  have hjoin : Returns (evaluateJoin ⟨.standard, .standard⟩ join left) one
      (left.crossJoin (right.renamed "b") "t_b_cross_joined") both := by
    cbv
  have hambiguous : scope.resolve ref
      ((Row.nulls "t" ["x", "x"]).join (Row.nulls "b" ["y"])) =
        .error (.ambiguousColumn "t.x") := rfl
  refine ⟨hb, List.forall_mem_singleton.mpr ⟨hambiguous, ?_⟩⟩
  exact h.joined rfl rfl (.join (.source hsource) hright hjoin) (fun _ _ => trivial) _
    List.mem_cons_self scope ref _ rfl hambiguous

end Engine

end TableQuery
