/-!
The command line: options first, then what to do.

dsql [-t NAME=PATH]... [--preserve-case] [--json] [shell | query QUERY]

Each flag may stand there once. The value of `-t`, or `--table`, is the next argument or follows in
the same one, with or without an equals sign for the short form; it is cut at its first equals sign,
and neither part may be empty. Two dashes alone end the options. Among them `-V`, or `--version`,
asks for the version, whatever comes after it.
-/

namespace TableQuery.Command

/-- What to do. -/
inductive Task where
  | version
  | shell
  | query (text : String)
  deriving DecidableEq, Repr

structure Invocation where
  /-- Table names with the files to load them from. -/
  tables : List (String × String)
  preservesCase : Bool
  json : Bool
  task : Task
  deriving DecidableEq, Repr

namespace Invocation

/-- Without arguments. -/
def standard : Invocation := ⟨[], false, false, .shell⟩

/-- Cuts `NAME=PATH` in two. -/
def binding? (value : String) : Option (String × String) :=
  let name := value.toList.takeWhile (· != '=')
  match value.toList.dropWhile (· != '=') with
  | '=' :: path =>
    if name.isEmpty || path.isEmpty then none else some (String.ofList name, String.ofList path)
  | _ => none

/-- An argument that is read as an option; a dash alone is not. -/
def isOption (arg : String) : Bool :=
  match arg.toList with
  | '-' :: _ :: _ => true
  | _ => false

/-- The version is asked for; the short form may have more behind it. -/
def asksVersion (arg : String) : Bool :=
  match arg.toList with
  | '-' :: 'V' :: _ => true
  | _ => arg = "--version"

/-- The value of the table option in the argument of the option itself. -/
def inlineTable? (arg : String) : Option String :=
  match arg.toList with
  | '-' :: '-' :: 't' :: 'a' :: 'b' :: 'l' :: 'e' :: '=' :: value => some (String.ofList value)
  | '-' :: 't' :: '=' :: value => some (String.ofList value)
  | '-' :: 't' :: value => some (String.ofList value)
  | _ => none

/-- The text of a query, which is the only argument left. -/
def queryText? : List String → Option String
  | ["--", text] => some text
  | [text, "--"] | [text] => if isOption text then none else some text
  | _ => none

/-- Two dashes may stand where no argument is left. -/
def isOver : List String → Bool
  | [] | ["--"] => true
  | _ => false

/-- Adds a table option with this value. -/
def addTable? (invocation : Invocation) (value : String) : Option Invocation :=
  (binding? value).map fun table => { invocation with tables := invocation.tables ++ [table] }

/-- Reads arguments behind those that make up `invocation`. -/
def readFrom? (invocation : Invocation) : List String → Option Invocation
  | [] | ["--"] => some invocation
  | "shell" :: rest => if isOver rest then some { invocation with task := .shell } else none
  | "query" :: rest => (queryText? rest).map fun text => { invocation with task := .query text }
  | "--preserve-case" :: rest =>
    if invocation.preservesCase then none
    else readFrom? { invocation with preservesCase := true } rest
  | "--json" :: rest =>
    if invocation.json then none else readFrom? { invocation with json := true } rest
  | arg :: rest =>
    if asksVersion arg then some { invocation with task := .version }
    else if arg = "-t" ∨ arg = "--table" then
      match rest with
      | [] => none
      | value :: rest =>
        if isOption value then none
        else (invocation.addTable? value).bind fun invocation => readFrom? invocation rest
    else
      ((inlineTable? arg).bind invocation.addTable?).bind fun invocation =>
        readFrom? invocation rest

/-- The invocation that arguments make up, if they make up one. -/
def ofArgs? (args : List String) : Option Invocation := readFrom? standard args

end Invocation

/-! ## Outcomes -/

/-- What a run of the command leaves behind. -/
structure Outcome where
  code : Nat
  output : String
  errors : String
  deriving DecidableEq, Repr

namespace Outcome

def success (output : String) : Outcome := ⟨0, output, ""⟩

def failure (message : String) : Outcome := ⟨1, "", "Error: " ++ message ++ "\n"⟩

/-- The arguments make up no invocation. -/
def misuse : Outcome :=
  ⟨2, "", "Usage: dsql [-t NAME=PATH]... [--preserve-case] [--json] [shell | query QUERY]\n"⟩

/-- The run breaks off where it stands. -/
def breakdown : Outcome := ⟨101, "", "The run broke off.\n"⟩

/-- An outcome behind something already printed. -/
def after (text : String) (outcome : Outcome) : Outcome :=
  { outcome with output := text ++ outcome.output }

end Outcome

end TableQuery.Command
