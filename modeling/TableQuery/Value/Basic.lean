import TableQuery.Number.Layout

/-!
The values that cells hold and expressions yield: null, double-precision numbers, texts and
booleans.
-/

namespace TableQuery

/-- The type of a value. -/
inductive Kind where
  | null
  | number
  | text
  | boolean
  deriving DecidableEq, Repr

namespace Kind

/-- The name messages use. -/
def name : Kind → String
  | null => "null"
  | number => "number"
  | text => "text"
  | boolean => "boolean"

end Kind

/-- The content of one cell. -/
inductive Value where
  | null
  | number (n : Number)
  | text (s : String)
  | boolean (b : Bool)
  deriving DecidableEq, Repr, Inhabited

namespace Value

def kind : Value → Kind
  | null => .null
  | number _ => .number
  | text _ => .text
  | boolean _ => .boolean

def isNull : Value → Bool
  | null => true
  | _ => false

def number? : Value → Option Number
  | number n => some n
  | _ => none

/-- The value as messages, row displays and text grids show it; a text stands without quotes. -/
def shown : Value → String
  | null => "null"
  | number n => n.text
  | text s => s
  | boolean true => "true"
  | boolean false => "false"

/-- The value of an answer that may be unknown. -/
def ofTruth : Option Bool → Value
  | none => null
  | some b => boolean b

end Value

end TableQuery
