import TableQuery.Command.Invocation
import TableQuery.Document.Writing
import TableQuery.Engine
import TableQuery.Table.Document
import TableQuery.Table.Grid
import TableQuery.Text.Backspace

/-!
The shell: every line is a command or a query, and every line is answered before the next one is
read. Failures are answers, too. What cannot be answered, a result too wide for a grid or a line that
its backspaces cut through, breaks the shell off.
-/

namespace TableQuery.Command

/-- The line below a grid. -/
def rowCountLine (table : Table) : String := "(" ++ toString table.rows.length ++ " rows)\n"

/-- A result as it is printed: as a document, or as a grid, if it has one, and the number of its
rows. -/
def resultText? (json : Bool) (table : Table) : Option String :=
  if json then some (table.toDocument.shown ++ "\n")
  else table.grid?.map (· ++ rowCountLine table)

namespace Shell

def welcome : String := "Welcome to dsql. Type 'help' for assistance or 'exit' to quit.\n"

/-- What stands where the input ends without a command to leave. -/
def inputEnds : String := "CTRL-D\n"

def farewell : String := "Goodbye!\n"

def helpLines : List String :=
  ["Query syntax:",
   "  SELECT expr [AS alias], ... [FROM table [alias] [joins]]",
   "    [WHERE cond] [GROUP BY col, ...] [HAVING cond]",
   "    [ORDER BY col [ASC|DESC], ...] [LIMIT n] [OFFSET n]",
   "",
   "Joins:",
   "  [INNER] JOIN t alias ON cond, LEFT [OUTER] JOIN t alias ON cond,",
   "  CROSS JOIN t alias, or a comma-separated table list",
   "",
   "Functions:",
   "  COUNT(), COUNT(*), COUNT(expr), SUM(expr), AVG(expr)  - aggregates, with GROUP BY",
   "  ROUND(value[, places]), TOINT(value)                  - scalar helpers",
   "",
   "Other commands:",
   "  help                          - Display this help message",
   "  exit                          - Exit the shell"]

def help : String := String.join (helpLines.map (· ++ "\n"))

/-! ## Lines -/

/-- What a line asks for. -/
inductive Line where
  | blank
  | leave
  | help
  | query (text : String)
  deriving DecidableEq, Repr

/-- Commands are recognised in any case and with blanks around them, after the backspaces. -/
def Line.ofText? (text : String) : Option Line :=
  (Text.afterBackspaces? text.toList).map fun left =>
    let trimmed := String.ofList (Text.trim left)
    if trimmed = "" then blank
    else
      let word := Text.lowercase trimmed
      if word = "exit" ∨ word = "quit" then leave
      else if word = "help" then help
      else query trimmed

/-- How the shell goes on after a line. -/
inductive Next where
  | read (engine : Engine)
  | leave
  | breakOff

/-- The answer to a line, and what comes next. -/
def answer (json : Bool) (engine : Engine) (text : String) : String × Next :=
  match Line.ofText? text with
  | none => ("", .breakOff)
  | some .blank => ("", .read engine)
  | some .leave => (farewell, .leave)
  | some .help => (help, .read engine)
  | some (.query text) =>
    match engine.query text with
    | (.error e, engine) => ("Error: " ++ e.message ++ "\n", .read engine)
    | (.ok table, engine) =>
      match resultText? json table with
      | some text => (text, .read engine)
      | none => ("", .breakOff)

/-- The outcome of answering lines, up to the one that leaves or to the end. -/
def answers (json : Bool) (engine : Engine) : List String → Outcome
  | [] => .success inputEnds
  | line :: rest =>
    match answer json engine line with
    | (text, .read engine) => (answers json engine rest).after text
    | (text, .leave) => .success text
    | (text, .breakOff) => Outcome.breakdown.after text

/-- The lines of an input. What follows the last line break is a line only where it is not empty. -/
def lines (input : String) : List String :=
  let lines := input.splitOn "\n"
  if lines.getLast? = some "" then lines.dropLast else lines

/-- The outcome of the shell on some input. -/
def run (json : Bool) (engine : Engine) (input : String) : Outcome :=
  (answers json engine (lines input)).after welcome

end Shell

end TableQuery.Command
