import TableQuery.Scope
import TableQuery.Value.Function

/-!
What an evaluation works with. The environment is fixed; the state is the scope, the frame that a
`having` condition takes its aggregates from, and a counter for generated labels. A failure leaves
the state as it was reached, so everything that opens something closes it on both ways out.
-/

namespace TableQuery

/-! ## Labels for tables without a name

A label is a stem with the first number from a start on that makes a label nobody uses. A label that
is in use is struck off before the next number is tried, so the search ends when all are struck off
at the latest. -/

namespace FreshLabel

/-- The label with a number. -/
def numbered (stem : String) (n : Nat) : String := stem ++ toString n

/-- The first number from `n` on whose label is not in use. -/
def firstFree (stem : String) (used : List String) (n : Nat) : Nat :=
  if h : numbered stem n ∈ used then firstFree stem (used.erase (numbered stem n)) (n + 1) else n
termination_by used.length
decreasing_by
  rw [List.length_erase_of_mem h]
  exact Nat.sub_lt (List.length_pos_of_mem h) Nat.one_pos

end FreshLabel

/-! ## Environment and context -/

/-- How queries are read and tables labelled. -/
structure Settings where
  /-- Query text is lower-cased before it is read. -/
  lowercases : Bool
  /-- What generated labels begin with. -/
  labelStem : String
  deriving DecidableEq, Repr

def Settings.standard : Settings := ⟨false, "t"⟩

/-- What stays the same while queries are evaluated. -/
structure Environment where
  settings : Settings
  functions : Registry

/-- The row that columns are read from and the rows that aggregates work on. -/
structure Context where
  row : Option Row
  group : Option (List Row)

namespace Context

/-- Neither row nor group. -/
def none : Context := ⟨.none, .none⟩

def ofRow (row : Row) : Context := ⟨some row, .none⟩

def ofGroup (row : Row) (rows : List Row) : Context := ⟨some row, some rows⟩

end Context

/-! ## State -/

structure State where
  scope : Scope
  /-- The frame of the rows that were grouped, while a `having` condition is evaluated. -/
  groupSource : Option Frame
  /-- The number to try first for the next generated label. -/
  labelCounter : Nat
  deriving DecidableEq, Repr

/-- Evaluations: they fail or yield a value, and keep their state either way. -/
abbrev Eval (α : Type) := ExceptT QueryError (StateM State) α

namespace Eval

/-- An evaluation from its effect on the state. -/
def ofRun {α : Type} (run : State → Except QueryError α × State) : Eval α := run

/-- The outcome and the state it leaves. -/
def runFrom {α : Type} (act : Eval α) (s : State) : Except QueryError α × State := act s

def ofExcept {α : Type} (outcome : Except QueryError α) : Eval α := ofRun fun s => (outcome, s)

/-- What can be read off the current scope. -/
def reading {α : Type} (read : Scope → Except QueryError α) : Eval α :=
  ofRun fun s => (read s.scope, s)

/-- Changes the scope. -/
def onScope (change : Scope → Scope) : Eval Unit :=
  ofRun fun s => (.ok (), { s with scope := change s.scope })

/-- The same evaluation with its failure reworded. -/
def mapError {α : Type} (reword : QueryError → QueryError) (act : Eval α) : Eval α :=
  ofRun fun s =>
    let (outcome, s) := act.runFrom s
    (outcome.mapError reword, s)

/-! ## Brackets -/

/-- Evaluates in a frame of its own, outside any `having`. -/
def inChildScope {α : Type} (act : Eval α) : Eval α := ofRun fun s =>
  let (outcome, after) := act.runFrom { s with scope := s.scope.push, groupSource := none }
  (outcome, { after with scope := after.scope.pop, groupSource := s.groupSource })

/-- Evaluates a `having` condition over rows grouped in the frame `source`. -/
def withGroupSource {α : Type} (source : Frame) (act : Eval α) : Eval α := ofRun fun s =>
  let (outcome, after) := act.runFrom { s with groupSource := some source }
  (outcome, { after with groupSource := s.groupSource })

/-- Evaluates a `having` condition in the frame of the projected groups. The frame that this one
takes the place of is the frame of the rows that were grouped. -/
def overProjection {α : Type} (projected : Table) (act : Eval α) : Eval α := ofRun fun s =>
  (withGroupSource s.scope.innermost act).runFrom { s with scope := s.scope.rebind projected }

/-- Evaluates in the frame of the rows that were grouped, if there is one, in place of the innermost
frame. -/
def inGroupSource {α : Type} (act : Eval α) : Eval α := ofRun fun s =>
  match s.groupSource with
  | none => act.runFrom s
  | some source =>
    let projection := s.scope.innermost
    let (outcome, after) :=
      act.runFrom { s with scope := s.scope.replace source, groupSource := none }
    (outcome, { after with
      scope := after.scope.replace projection
      groupSource := some after.scope.innermost })

/-! ## Generated labels -/

/-- A label that no frame uses. The counter moves behind its number. -/
def freshLabel (settings : Settings) : Eval String := ofRun fun s =>
  let n := FreshLabel.firstFree settings.labelStem s.scope.allLabels s.labelCounter
  (.ok (FreshLabel.numbered settings.labelStem n), { s with labelCounter := n + 1 })

end Eval

end TableQuery
