import TableQuery.Evaluation.Select
import TableQuery.Query.Statement

/-!
An engine: tables bound under names, and the queries asked of them. Queries leave the bindings
alone; only the counter for generated labels goes on from one to the next, after failures too.
-/

namespace TableQuery

structure Engine where
  env : Environment
  state : State

namespace Engine

/-- An engine without tables. -/
def new (settings : Settings) (functions : Registry) : Engine :=
  ⟨⟨settings, functions⟩, ⟨.ofRoot .empty, none, 0⟩⟩

/-! ## Binding tables -/

/-- Binds a table under a name, which it takes for its own. -/
def bind (engine : Engine) (name : String) (table : Table) : Engine :=
  { engine with state.scope := engine.state.scope.setTable name (table.named name) }

/-- Binds tables one after the other. -/
def bindAll (engine : Engine) (bindings : List (String × Table)) : Engine :=
  bindings.foldl (fun engine binding => engine.bind binding.1 binding.2) engine

/-! ## Asking queries -/

/-- The outcome of an evaluation, and the engine after it. -/
def run {α : Type} (engine : Engine) (act : Eval α) : Except QueryError α × Engine :=
  let (outcome, state) := act.runFrom engine.state
  (outcome, { engine with state })

/-- The result of a query. -/
def execute (engine : Engine) (query : Select) : Except QueryError Table × Engine :=
  engine.run (evaluateSelect engine.env query)

/-- The results of queries up to the first failure. -/
def executeAll (engine : Engine) : List Select → Except QueryError (List Table) × Engine
  | [] => (.ok [], engine)
  | query :: rest =>
    match engine.execute query with
    | (.error e, engine) => (.error e, engine)
    | (.ok table, engine) =>
      let (outcome, engine) := executeAll engine rest
      (outcome.map (table :: ·), engine)

/-- The text of a query as it is read. -/
def prepare (engine : Engine) (text : String) : String :=
  if engine.env.settings.lowercases then Text.lowercase text else text

/-- The result of the one statement of a text. -/
def query (engine : Engine) (text : String) : Except QueryError Table × Engine :=
  match Select.ofText? (engine.prepare text) with
  | .error e => (.error (.parse e), engine)
  | .ok query => engine.execute query

/-- The results of the statements of a script. -/
def script (engine : Engine) (text : String) : Except QueryError (List Table) × Engine :=
  match Select.scriptOfText? (engine.prepare text) with
  | .error e => (.error (.parse e), engine)
  | .ok queries => engine.executeAll queries

/-- The value of an expression in a context, outside any query. -/
def evaluate (engine : Engine) (expr : Expr) (context : Context) :
    Except QueryError Value × Engine :=
  engine.run (TableQuery.evaluate engine.env expr context)

end Engine

end TableQuery
