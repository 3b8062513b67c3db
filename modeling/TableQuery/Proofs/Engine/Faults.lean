import TableQuery.Proofs.Engine.Uniform
import TableQuery.Proofs.Query.Balance
import TableQuery.Proofs.Text.Places
import TableQuery.Proofs.Token.Scan

/-! # No internal faults

If a caller binds tables that were made of lists of values, and registers no function that fails
that way itself, no query text fails for a reason that lies in the engine. Three things come
together: the scanner and the parser always have a token to blame, trees that were read are
balanced, and rows have a value for each of their columns. -/

namespace TableQuery

open Eval

/-- A failure to read a query blames the text. -/
theorem Select.ofText?_internal {text : String} {e : ParseError} (h : ofText? text = .error e) :
    ¬e.Internal := by
  rcases (ofText?_balanced text).2 e h with ⟨fault, hf, rfl⟩ | ht
  · obtain ⟨p, rfl | ⟨c, rfl⟩⟩ := Token.scan?_fault hf
    · exact id
    · exact id
  · cases e with
    | endOfInput => cases ht
    | scan fault => cases ht
    | _ => exact id

/-- A balanced query fails without internal fault. -/
theorem Select.clean_evaluate {env : Environment} (hf : env.functions.Faultless) {query : Select}
    (hb : query.Everywhere Expr.Balanced) {s : State} (hs : s.Uniform) :
    Clean ((evaluateSelect env query).runFrom s).1 :=
  (query.parts_sound (fun _ : True => hf) fun _ => hb).evaluates.clean trivial s hs

namespace Engine

/-- What should never happen does not happen. No query fails with an internal fault, unless a
function that a caller has registered does; the built-in functions do not, and neither does any
choice of them. Columns have values on all rows that expressions are evaluated on, at whatever depth,
no token takes more characters than there are, and a comparison with a pattern stays within the value
and the pattern. -/
theorem no_internal_fault (settings : Settings) (functions : Registry)
    (bindings : List (String × Table)) (calls : List Call)
    (hb : ∀ binding ∈ allBindings bindings calls, binding.2.FromValues) :
    (functions.Faultless →
      ∀ text e, ((session settings functions bindings calls).query text).1 = .error e →
        ¬e.Internal) ∧
    (Registry.standard.Faultless ∧ ∀ names, (Registry.ofNames names).Faultless) ∧
    (∀ top query s, Nested ⟨settings, functions⟩ (fun _ => True) top
      (session settings functions bindings calls).state query s →
      ∀ place items task t, query.Evaluates ⟨settings, functions⟩ s place items task t →
        task.Indexed) ∧
    (∀ pos c rest e, Token.extent pos c rest = .ok e → e.Fits c rest) ∧
    ∀ value pattern places, Text.Wildcard.Places.Reached value pattern places →
      places.InRange value pattern := by
  have hs := uniform_session settings functions bindings calls hb
  refine ⟨fun hf text e h => ?_, ⟨Registry.faultless_standard, Registry.faultless_ofNames⟩,
    fun top query s hn place items task t he => (he.uniform (hn.uniform hs)).2,
    fun _ _ _ _ => Token.extent_fits, fun _ _ _ hr => hr.inRange.1⟩
  unfold Engine.query at h
  split at h
  · next fault hread =>
    cases h
    exact Select.ofText?_internal hread
  · next query hread =>
    have hquery := (Select.ofText?_balanced _).1 query hread
    have hfaultless : (session settings functions bindings calls).env.functions.Faultless := by
      rw [env_session]
      exact hf
    exact Select.clean_evaluate hfaultless hquery hs e h

theorem limit_on_column_is_blamed :
    ∃ e, ((session .standard .standard [("t", .ofFields "t" ["x"])] []).query
      "select case when a.x is null then 1 else 2 end from t a limit a.x").1 = .error e ∧
        e = .slice .limit (.noRow "a.x") ∧ ¬e.Internal := by
  have hb : ∀ binding ∈ allBindings [("t", .ofFields "t" ["x"])] [], binding.2.FromValues := by
    intro binding hm
    cases List.mem_singleton.mp hm
    exact ⟨"t", ["x"], [[.null]], rfl⟩
  have hn := no_internal_fault .standard .standard _ [] hb
  have hr : ((session .standard .standard [("t", .ofFields "t" ["x"])] []).query
      "select case when a.x is null then 1 else 2 end from t a limit a.x").1 =
        .error (.slice .limit (.noRow "a.x")) := by cbv
  exact ⟨_, hr, rfl, hn.1 Registry.faultless_standard _ _ hr⟩

end Engine

end TableQuery
