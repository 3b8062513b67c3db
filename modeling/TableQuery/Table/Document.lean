import TableQuery.Document.Reading
import TableQuery.Table.Basic

/-!
Tables as documents: an array with an object for every row, whose members are the visible names and
their values. Every flat array of objects is a table; its fields are all member names in the order
in which they first occur, and a row without a member has null there.
-/

namespace TableQuery

/-! ## Values -/

/-- A value as part of a document. Numbers that are not finite become null. -/
def Value.toDocument : Value → Document
  | null => .null
  | number n => if n.isFinite then .number n else .null
  | text s => .text s
  | boolean b => .boolean b

/-- The value that a part of a document is; arrays and objects are none. -/
def Value.ofDocument : Document → Except QueryError Value
  | .null => .ok null
  | .boolean b => .ok (boolean b)
  | .number n => .ok (number n)
  | .text s => .ok (text s)
  | .array _ | .object _ => .error (.conversion .nestedValue)

/-! ## Tables -/

namespace Table

/-- The object of a row. Of values with one name the last counts. -/
def rowDocument (row : Row) : Document :=
  .ofMembers (row.entries.map fun (name, v) => (name, v.toDocument))

def toDocument (table : Table) : Document := .array (table.rows.map rowDocument)

/-- The members of each object among the items. -/
def rowMembers (name : String) : List Document → Except QueryError (List (List (String × Document)))
  | [] => .ok []
  | .object members :: rest => (members :: ·) <$> rowMembers name rest
  | _ :: _ => .error (.conversion (.notObject name))

/-- The member names of all objects, in the order in which they first occur. -/
def fieldsOf (objects : List (List (String × Document))) : List String :=
  (objects.flatMap fun members => members.map (·.1)).eraseDups

/-- The values of an object in the order of the fields. -/
def fieldValues (fields : List String) (members : List (String × Document)) :
    Except QueryError (List Value) :=
  fields.mapM fun field =>
    match Document.member? field members with
    | some content => Value.ofDocument content
    | none => .ok .null

/-- The table that an array of flat objects is. -/
def ofDocument (name : String) (document : Document) : Except QueryError Table :=
  match document with
  | .array items => do
    let objects ← rowMembers name items
    let fields := fieldsOf objects
    ofValues name fields (← objects.mapM (fieldValues fields))
  | _ => .error (.conversion (.notArray name))

/-- The table in a text, which is absent where it could not be read. -/
def load (name : String) (text : Option String) : Except QueryError Table :=
  match text with
  | none => .error (.conversion .unreadable)
  | some text =>
    match Document.ofText? text with
    | none => .error (.conversion .invalidDocument)
    | some document => ofDocument name document

end Table

end TableQuery
