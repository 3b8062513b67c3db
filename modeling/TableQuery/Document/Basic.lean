import TableQuery.Number.Basic

/-!
Documents: the JSON data model with members in order. The numbers are doubles.
-/

namespace TableQuery

inductive Document where
  | null
  | boolean (b : Bool)
  | number (n : Number)
  | text (s : String)
  | array (items : List Document)
  | object (members : List (String × Document))
  deriving Repr, Inhabited

namespace Document

/-- Adds a member behind the others. A name that is there already keeps its place and takes the new
content. -/
def insertMember (name : String) (content : Document) :
    List (String × Document) → List (String × Document)
  | [] => [(name, content)]
  | member :: rest =>
    if member.1 = name then (name, content) :: rest
    else member :: insertMember name content rest

/-- The object with these members, inserted one after the other. -/
def ofMembers (members : List (String × Document)) : Document :=
  object (members.foldl (fun done member => insertMember member.1 member.2 done) [])

/-- The content of the member of a name. -/
def member? (name : String) (members : List (String × Document)) : Option Document :=
  members.lookup name

end Document

end TableQuery
