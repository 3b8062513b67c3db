import TableQuery.Table.Basic

/-!
What names mean while a query is evaluated. A frame binds tables to names and gives them labels; a
scope is a stack of frames, the caller's bindings at the bottom. Lookups go from the innermost frame
outwards, and only the innermost frame is written.
-/

namespace TableQuery

/-! ## Frames -/

structure Frame where
  /-- Tables under their names, the one bound last at the end. -/
  tables : List (String × Table)
  /-- The table name that each label stands for. -/
  labels : List (String × String)
  deriving DecidableEq, Repr

namespace Frame

def empty : Frame := ⟨[], []⟩

/-- The table bound under a name. -/
def table? (frame : Frame) (name : String) : Option Table := frame.tables.lookup name

/-- The name of the table that a label stands for. -/
def tableName? (frame : Frame) (label : String) : Option String := frame.labels.lookup label

/-- The table that a name or a label stands for; names count first. -/
def find? (frame : Frame) (name : String) : Option Table :=
  (frame.table? name).or ((frame.tableName? name).bind frame.table?)

/-- Makes a label stand for a table name. -/
def setLabel (frame : Frame) (label tableName : String) : Frame :=
  { frame with labels := (label, tableName) :: frame.labels.filter (·.1 != label) }

/-- Binds a table behind all others; the name becomes a label of the table, too. -/
def setTable (frame : Frame) (name : String) (table : Table) : Frame :=
  let labelled := frame.setLabel name table.name
  { labelled with tables := labelled.tables.filter (·.1 != name) ++ [(name, table)] }

/-- The frame with one table only, which all labels now stand for. -/
def rebound (frame : Frame) (table : Table) : Frame :=
  setTable ⟨[], frame.labels.map fun entry => (entry.1, table.name)⟩ table.name table

/-- All tables, in the order of binding. -/
def allTables (frame : Frame) : List Table := frame.tables.map (·.2)

end Frame

/-! ## Scopes -/

structure Scope where
  innermost : Frame
  /-- The frames around it, from the inside outwards. -/
  outer : List Frame
  deriving DecidableEq, Repr

namespace Scope

/-- The scope of one frame. -/
def ofRoot (root : Frame) : Scope := ⟨root, []⟩

def frames (scope : Scope) : List Frame := scope.innermost :: scope.outer

def depth (scope : Scope) : Nat := scope.frames.length

/-- Opens an empty frame. -/
def push (scope : Scope) : Scope := ⟨.empty, scope.frames⟩

/-- Closes the innermost frame; the last one stays. -/
def pop (scope : Scope) : Scope :=
  match scope.outer with
  | [] => scope
  | frame :: rest => ⟨frame, rest⟩

/-- The scope with another innermost frame. -/
def replace (scope : Scope) (frame : Frame) : Scope := { scope with innermost := frame }

/-- The scope whose innermost frame has one table only. -/
def rebind (scope : Scope) (table : Table) : Scope :=
  scope.replace (scope.innermost.rebound table)

def setTable (scope : Scope) (name : String) (table : Table) : Scope :=
  scope.replace (scope.innermost.setTable name table)

def setLabel (scope : Scope) (label tableName : String) : Scope :=
  scope.replace (scope.innermost.setLabel label tableName)

/-- The nearest table bound under a name. -/
def table? (scope : Scope) (name : String) : Option Table :=
  scope.frames.findSome? (·.table? name)

/-- The nearest table that a name or a label stands for. -/
def find? (scope : Scope) (name : String) : Option Table :=
  scope.frames.findSome? (·.find? name)

/-- The table name that the nearest label of this text stands for. -/
def tableName? (scope : Scope) (label : String) : Option String :=
  scope.frames.findSome? (·.tableName? label)

/-- The labels of all frames. -/
def allLabels (scope : Scope) : List String :=
  scope.frames.flatMap fun frame => frame.labels.map (·.1)

end Scope

end TableQuery
