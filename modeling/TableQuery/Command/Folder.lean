/-!
The files a run can read. A path leads from the folder the run starts in, part by part, and never
out of it; a few absolute paths stand for the standard input.
-/

namespace TableQuery.Command

/-- The files below a folder, each with the parts of its path. Of two entries for the same file the
later one holds. -/
structure Folder where
  files : List (List String × String)
  deriving DecidableEq, Repr

namespace Folder

/-- Parts of a path that lead nowhere. -/
def isStill (part : String) : Bool := part = "" || part = "."

/-- The folder of files given by their paths. -/
def ofFiles (files : List (String × String)) : Folder :=
  ⟨files.map fun file => ((file.1.splitOn "/").filter (!isStill ·), file.2)⟩

/-- There is a file somewhere below the folder with this path. -/
def hasFolder (folder : Folder) (path : List String) : Bool :=
  folder.files.any fun file => file.1.dropLast.take path.length = path

/-- The text of the file that parts lead to from the folder `here`. Only the last part may name a
file, and has to. -/
def textFrom? (folder : Folder) (here : List String) : List String → Option String
  | [] => none
  | [part] =>
    if isStill part || part = ".." then none else folder.files.reverse.lookup (here ++ [part])
  | part :: rest =>
    if isStill part then folder.textFrom? here rest
    else if part = ".." then if here = [] then none else folder.textFrom? here.dropLast rest
    else if folder.hasFolder (here ++ [part]) then folder.textFrom? (here ++ [part]) rest
    else none

/-- The text of the file at a path. -/
def text? (folder : Folder) (path : String) : Option String :=
  if path.startsWith "/" then none else folder.textFrom? [] (path.splitOn "/")

end Folder

/-! ## Files and input -/

/-- What a run has to read from: files, and an input that is used up by reading it. -/
structure Sources where
  folder : Folder
  input : String
  deriving DecidableEq, Repr

namespace Sources

/-- The absolute paths of the standard input. -/
def inputPaths : List (List String) :=
  [["dev", "stdin"], ["dev", "fd", "0"], ["proc", "self", "fd", "0"]]

def isInput (path : String) : Bool :=
  let parts := path.splitOn "/"
  path.startsWith "/" && !(parts.getLast?.any Folder.isStill)
    && parts.filter (!Folder.isStill ·) ∈ inputPaths

/-- The text at a path, if it can be read, and what is left to read from. -/
def read (sources : Sources) (path : String) : Option String × Sources :=
  if isInput path then (some sources.input, { sources with input := "" })
  else (sources.folder.text? path, sources)

/-- The texts at all paths, read one after the other. -/
def readAll (sources : Sources) : List String → List (Option String) × Sources
  | [] => ([], sources)
  | path :: rest =>
    let (text, sources) := sources.read path
    let (texts, sources) := sources.readAll rest
    (text :: texts, sources)

end Sources

end TableQuery.Command
