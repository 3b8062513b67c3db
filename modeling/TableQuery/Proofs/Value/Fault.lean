import TableQuery.Proofs.Value.Function
import TableQuery.Table.Group

/-! # Internal faults

Some errors would be faults of the engine and not of a query: a row that does not fit its columns, a
value that cannot be converted, tokens that run out, and the like. No operation on values fails that
way, whatever the values, and no function fails that way if those that a caller has registered do
not. -/

namespace TableQuery

/-- The scanner or the parser has lost its way. -/
def ParseError.Internal : ParseError → Prop
  | .endOfInput | .scan (.invalidNumber ..) => True
  | _ => False

/-- No query should fail like this. -/
def QueryError.Internal : QueryError → Prop
  | .row _ | .conversion _ => True
  | .execution (.caseBranches ..) | .execution .noSortKey => True
  | .parse error => error.Internal
  | .slice _ reason => reason.Internal
  | _ => False

/-- The outcome is no internal fault. -/
def Clean {α : Type} (outcome : Except QueryError α) : Prop :=
  ∀ e, outcome = .error e → ¬e.Internal

variable {α β : Type}

theorem clean_ok (a : α) : Clean (.ok a : Except QueryError α) := nofun

theorem clean_error {e : QueryError} (h : ¬e.Internal) :
    Clean (.error e : Except QueryError α) := by
  intro e' he
  cases he
  exact h

theorem Clean.bind {outcome : Except QueryError α} {next : α → Except QueryError β}
    (h : Clean outcome) (hn : ∀ a, outcome = .ok a → Clean (next a)) : Clean (outcome >>= next) := by
  cases outcome with
  | error e => exact clean_error (h e rfl)
  | ok a => exact hn a rfl

theorem Clean.map {outcome : Except QueryError α} (h : Clean outcome) (f : α → β) :
    Clean (f <$> outcome) := by
  cases outcome with
  | error e => exact clean_error (h e rfl)
  | ok a => exact clean_ok (f a)

theorem Clean.mapM {f : α → Except QueryError β} :
    ∀ {as : List α}, (∀ a ∈ as, Clean (f a)) → Clean (as.mapM f)
  | [], _ => clean_ok []
  | a :: rest, h => by
    rw [List.mapM_cons]
    have hrest := Clean.mapM fun b hb => h b (List.mem_cons_of_mem _ hb)
    exact (h a List.mem_cons_self).bind fun b _ => hrest.bind fun bs _ => clean_ok (b :: bs)

/-! ## Operations on values -/

namespace Value

theorem clean_onNumbers (op : Operator) (m n : Number) : Clean (onNumbers op m n) := by
  intro e h
  cases op <;> simp only [onNumbers] at h
  case divide | modulo =>
    split at h
    · cases h
      exact id
    · cases h
  all_goals cases h

theorem clean_numeric (op : Operator) (a b : Value) : Clean (numeric op a b) := by
  unfold numeric
  split
  · exact clean_ok _
  · split
    · exact clean_onNumbers op _ _
    · exact clean_error id

theorem clean_equal (a b : Value) : Clean (a.equal b) := by
  intro e h
  unfold equal at h
  split at h <;> cases h
  exact id

theorem clean_binary (op : Operator) (a b : Value) : Clean (binary op a b) := by
  unfold binary
  split
  · exact (clean_equal a b).map boolean
  · exact (clean_equal a b).map _
  · exact clean_numeric op a b

theorem clean_compare (a b : Value) : Clean (a.compare? b) := by
  intro e h
  unfold compare? at h
  split at h <;> cases h
  exact id

theorem clean_between (v low high : Value) : Clean (v.between low high) := by
  refine (clean_compare v low).bind fun above _ => (clean_compare v high).bind fun below _ => ?_
  split <;> exact clean_ok _

theorem clean_truth (v : Value) : Clean v.truth? := by
  cases v with
  | boolean b => exact clean_ok _
  | null => exact clean_ok _
  | _ => exact clean_error id

theorem clean_holds (v : Value) : Clean v.holds :=
  (clean_truth v).bind fun _ _ => clean_ok _

theorem clean_not (v : Value) : Clean v.not := by
  cases v with
  | boolean b => exact clean_ok _
  | null => exact clean_ok _
  | _ => exact clean_error id

theorem clean_negate (v : Value) : Clean v.negate := by
  cases v with
  | number n => exact clean_ok _
  | null => exact clean_ok _
  | _ => exact clean_error id

theorem clean_like (ignoreCase : Bool) (v pattern : Value) :
    Clean (like ignoreCase v pattern) := by
  intro e h
  unfold like at h
  split at h <;> cases h
  exact id

end Value

theorem GroupKey.clean_ofValue (v : Value) : Clean (GroupKey.ofValue v) := by
  cases v with
  | boolean b => exact clean_error id
  | _ => exact clean_ok _

/-! ## Functions -/

theorem Aggregate.clean_numbers (name : String) :
    ∀ vs : List Value, Clean (numbers name vs)
  | [] => clean_ok []
  | .null :: rest => clean_numbers name rest
  | .number _ :: rest => (clean_numbers name rest).map _
  | .text _ :: _ | .boolean _ :: _ => clean_error id

theorem Aggregate.clean_ofNumbers (name : String) (make : List Number → Number)
    (input : AggregateInput) : Clean ((ofNumbers name make).apply input) := by
  cases input with
  | rows n => exact clean_error id
  | values vs => exact (clean_numbers name vs).bind fun _ _ => clean_ok _

theorem Aggregate.clean_all {function : Aggregate} (h : function ∈ all) (input : AggregateInput) :
    Clean (function.apply input) := by
  simp only [all, List.mem_cons, List.not_mem_nil, or_false] at h
  obtain rfl | rfl | rfl := h
  · cases input <;> exact clean_ok _
  · exact clean_ofNumbers "sum" total input
  · exact clean_ofNumbers "avg" mean input

theorem ScalarFunction.clean_places (v : Value) : Clean (places? v) := by
  unfold places?
  split
  · exact clean_ok _
  · exact clean_error id

theorem ScalarFunction.clean_round (args : List Value) : Clean (round.apply args) := by
  unfold round
  dsimp only
  split
  case h_3 _ rest =>
    refine Clean.bind ?_ fun _ _ => clean_ok _
    cases rest with
    | nil => exact clean_ok _
    | cons v more => exact clean_places v
  all_goals first | exact clean_ok _ | exact clean_error id

theorem ScalarFunction.clean_toint (args : List Value) : Clean (toint.apply args) := by
  unfold toint
  dsimp only
  split
  all_goals first | exact clean_ok _ | exact clean_error id

theorem ScalarFunction.clean_all {function : ScalarFunction} (h : function ∈ all)
    (args : List Value) : Clean (function.apply args) := by
  simp only [all, List.mem_cons, List.not_mem_nil, or_false] at h
  obtain rfl | rfl := h
  · exact clean_round args
  · exact clean_toint args

namespace Registry

/-- What is asked of functions that a caller registers: none of them fails with a fault that only
the engine should report. -/
structure Faultless (registry : Registry) : Prop where
  aggregate : ∀ {name : String} {function : Aggregate}, registry.aggregate? name = some function →
    ∀ input, Clean (function.apply input)
  scalar : ∀ {name : String} {function : ScalarFunction}, registry.scalar? name = some function →
    ∀ args, Clean (function.apply args)

variable {registry : Registry}

theorem faultless_empty : empty.Faultless := ⟨nofun, nofun⟩

theorem Faultless.registerAggregate (h : registry.Faultless) {function : Aggregate}
    (hf : ∀ input, Clean (function.apply input)) :
    (registry.registerAggregate function).Faultless where
  aggregate {name found} hn := by
    rw [aggregate?_registerAggregate] at hn
    split at hn
    · cases hn
      exact hf
    · exact h.aggregate hn
  scalar := h.scalar

theorem Faultless.registerScalar (h : registry.Faultless) {function : ScalarFunction}
    (hf : ∀ args, Clean (function.apply args)) : (registry.registerScalar function).Faultless where
  aggregate := h.aggregate
  scalar {name found} hn := by
    rw [scalar?_registerScalar] at hn
    split at hn
    · cases hn
      exact hf
    · exact h.scalar hn

theorem faultless_ofFunctions {aggregates : List Aggregate} {scalars : List ScalarFunction}
    (ha : ∀ function ∈ aggregates, ∀ input, Clean (function.apply input))
    (hs : ∀ function ∈ scalars, ∀ args, Clean (function.apply args)) :
    (ofFunctions aggregates scalars).Faultless := by
  have haggregates : (aggregates.foldl registerAggregate empty).Faultless :=
    List.foldlRecOn aggregates registerAggregate faultless_empty fun registry h function hf =>
      h.registerAggregate (ha function hf)
  exact List.foldlRecOn scalars registerScalar haggregates fun registry h function hf =>
    h.registerScalar (hs function hf)

/-- Nor does a built-in function fail like that, whichever of them are at hand. -/
theorem faultless_ofNames (names : List String) : (ofNames names).Faultless :=
  faultless_ofFunctions (fun _ hf => Aggregate.clean_all (List.mem_filter.mp hf).1)
    fun _ hf => ScalarFunction.clean_all (List.mem_filter.mp hf).1

theorem faultless_standard : standard.Faultless :=
  faultless_ofFunctions (fun _ => Aggregate.clean_all) fun _ => ScalarFunction.clean_all

theorem clean_checkAggregate (registry : Registry) (name : String) (args : Nat)
    (star : Bool) : Clean (registry.checkAggregate name args star) := by
  unfold checkAggregate
  split
  · exact clean_error id
  · split
    · exact clean_ok _
    · exact clean_error id

theorem Faultless.checkAggregate (h : registry.Faultless) {name : String} {args : Nat}
    {star : Bool} {function : Aggregate} (hc : registry.checkAggregate name args star = .ok function)
    (input : AggregateInput) : Clean (function.apply input) :=
  h.aggregate (checkAggregate_ok hc).1 input

theorem Faultless.clean_callScalar (h : registry.Faultless) (name : String) (args : List Value) :
    Clean (registry.callScalar name args) := by
  unfold callScalar
  split
  · exact clean_error id
  · next function hf =>
    dsimp only
    split
    · exact clean_error id
    · exact h.scalar hf args

end Registry

end TableQuery
