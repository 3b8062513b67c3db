import TableQuery.Command.Folder
import TableQuery.Command.Invocation
import TableQuery.Command.Shell

/-!
A whole run of the command: from arguments, files and input to what is printed and the exit code.
-/

namespace TableQuery.Command

def versionText : String := "dataselector 0.1.0\n"

/-- The tables of an invocation from the texts of their files, or the name of the first one that
cannot be loaded. -/
def loadTables : List (String × Option String) → Except String (List (String × Table))
  | [] => .ok []
  | (name, text) :: rest =>
    match Table.load name text with
    | .error _ => .error name
    | .ok table => ((name, table) :: ·) <$> loadTables rest

/-- The engine of an invocation. -/
def engine (invocation : Invocation) (tables : List (String × Table)) : Engine :=
  let settings := { Settings.standard with lowercases := !invocation.preservesCase }
  (Engine.new settings .standard).bindAll tables

/-- The outcome of one query. -/
def runQuery (json : Bool) (engine : Engine) (text : String) : Outcome :=
  match (engine.query text).1 with
  | .error e => .failure ("Error executing query: " ++ e.message)
  | .ok table =>
    match resultText? json table with
    | some text => .success text
    | none => .breakdown

def loadFailure (name : String) : Outcome := .failure ("Failed to load table " ++ name)

/-- Loads the tables and goes on with the engine that has them. -/
def withEngine (invocation : Invocation) (sources : Sources)
    (next : Engine → Sources → Outcome) : Outcome :=
  let (names, paths) := invocation.tables.unzip
  let (texts, sources) := sources.readAll paths
  match loadTables (names.zip texts) with
  | .error name => loadFailure name
  | .ok tables => next (engine invocation tables) sources

/-- The outcome of an invocation. -/
def Invocation.run (invocation : Invocation) (sources : Sources) : Outcome :=
  match invocation.task with
  | .version => .success versionText
  | .query text =>
    withEngine invocation sources fun engine _ => runQuery invocation.json engine text
  | .shell =>
    withEngine invocation sources fun engine sources =>
      Shell.run invocation.json engine sources.input

/-- The outcome of the command. -/
def run (args : List String) (sources : Sources) : Outcome :=
  match Invocation.ofArgs? args with
  | none => .misuse
  | some invocation => invocation.run sources

end TableQuery.Command
