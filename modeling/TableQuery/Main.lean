import TableQuery.Command.Run

/-!
The `dsql` program: reads the files and the lines that `TableQuery.Command` asks for, and prints
what it answers.
-/

namespace TableQuery.Main
open Command

/-- The text of a file, if it can be read. -/
def readText? (path : String) : IO (Option String) := do
  try
    return some (← IO.FS.readFile path)
  catch _ =>
    return none

/-- Prints an outcome and hands on its code. -/
def report (outcome : Outcome) : IO UInt32 := do
  IO.print outcome.output
  IO.eprint outcome.errors
  return outcome.code.toUInt32

/-- Answers lines as they come. -/
partial def shellLoop (input output : IO.FS.Stream) (json : Bool) (engine : Engine) :
    IO UInt32 := do
  let line ← input.getLine
  if line.isEmpty then report (.success Shell.inputEnds)
  else
    let (text, next) := Shell.answer json engine line
    output.putStr text
    output.flush
    match next with
    | .read engine => shellLoop input output json engine
    | .leave => return 0
    | .breakOff => report .breakdown

/-- Goes on with the engine of an invocation. -/
def withTables (invocation : Invocation) (next : Engine → IO UInt32) : IO UInt32 := do
  let texts ← invocation.tables.mapM fun table => return (table.1, ← readText? table.2)
  match loadTables texts with
  | .error name => report (loadFailure name)
  | .ok tables => next (engine invocation tables)

end TableQuery.Main

open TableQuery.Command TableQuery.Main in
def main (args : List String) : IO UInt32 := do
  match Invocation.ofArgs? args with
  | none => report .misuse
  | some invocation =>
    match invocation.task with
    | .version => report (.success versionText)
    | .query text =>
      withTables invocation fun engine => report (runQuery invocation.json engine text)
    | .shell =>
      withTables invocation fun engine => do
        IO.print Shell.welcome
        shellLoop (← IO.getStdin) (← IO.getStdout) invocation.json engine
