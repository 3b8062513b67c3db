import TableQuery.Value.Operation

/-!
The named functions of the query language and the registry that says which of them are at hand.
Aggregates turn the values of a group into one value, scalar functions turn the values of their
arguments into one. A caller may register functions of its own beside the built-in ones or in place
of them. Names are looked up in lower case.
-/

namespace TableQuery

/-! ## Aggregates -/

/-- What an aggregate is applied to. -/
inductive AggregateInput where
  /-- The rows of the group, of which only the number counts. -/
  | rows (count : Nat)
  /-- The values that an argument has on the rows of the group. -/
  | values (vs : List Value)

structure Aggregate where
  name : String
  /-- Whether it can be called without argument or with a star. -/
  acceptsRows : Bool
  apply : AggregateInput → Except QueryError Value

namespace Aggregate

/-- How many arguments a call may have. -/
def argumentCount (function : Aggregate) : ArgumentCount :=
  if function.acceptsRows then .atMostOne else .exactly 1

/-- A call is well formed with one argument, and with none or a star where rows are accepted. -/
def accepts (function : Aggregate) (args : Nat) (star : Bool) : Bool :=
  if star || args == 0 then function.acceptsRows && !(star && 0 < args) else args == 1

/-! ### Built-in aggregates -/

/-- The numbers among values that may otherwise be null only, for the function of this name. -/
def numbers (name : String) : List Value → Except QueryError (List Number)
  | [] => .ok []
  | .null :: rest => numbers name rest
  | .number n :: rest => (n :: ·) <$> numbers name rest
  | v :: _ => .error (.type (.aggregated name v.kind))

/-- The sum of numbers from left to right. It starts from the negative zero, which changes no
number. -/
def total (ns : List Number) : Number := ns.foldl Number.add (.zero true)

/-- The mean of numbers, and zero where there is none. -/
def mean (ns : List Number) : Number :=
  if ns.isEmpty then .zero false else (total ns).div (.ofNat ns.length)

/-- An aggregate that makes a number of the numbers among its values. -/
def ofNumbers (name : String) (make : List Number → Number) : Aggregate where
  name
  acceptsRows := false
  apply
    | .values vs => do return .number (make (← numbers name vs))
    | .rows _ => .error (.argumentCount name (.exactly 1) 0)

/-- The number of rows, or of values that are not null. -/
def count : Aggregate where
  name := "count"
  acceptsRows := true
  apply
    | .rows n => .ok (.number (.ofNat n))
    | .values vs => .ok (.number (.ofNat (vs.filter (!·.isNull)).length))

def sum : Aggregate := ofNumbers "sum" total

def avg : Aggregate := ofNumbers "avg" mean

/-- The built-in aggregates. -/
def all : List Aggregate := [count, sum, avg]

end Aggregate

/-! ## Scalar functions -/

structure ScalarFunction where
  name : String
  /-- The least and the greatest number of arguments. -/
  arity : Nat × Nat
  apply : List Value → Except QueryError Value

namespace ScalarFunction

def argumentCount (function : ScalarFunction) : ArgumentCount :=
  let (least, most) := function.arity
  if least = most then .exactly least else .between least most

/-! ### Built-in scalar functions -/

/-- The greatest power of ten that is finite. -/
def mostPlaces : Nat := 308

/-- From here on every number is whole. -/
def wholeLimit : Number := .ofNat 0x20000000000000

/-- The number rounded to decimal places, a half away from zero. A number that has no digits beyond
these places is left as it is. -/
def roundTo (places : Nat) (n : Number) : Number :=
  let factor := (Number.ofNat 10).power places
  let scaled := n.mul factor
  if wholeLimit.lessOrEqual scaled.abs then n else scaled.roundHalfAway.div factor

/-- The number of places that a value asks for. -/
def places? (v : Value) : Except QueryError Nat :=
  match v.number?.bind Number.toNat? with
  | some places => .ok (min places mostPlaces)
  | none => .error (.type (.roundPlaces v))

/-- A number rounded to whole numbers, or to the places asked for. -/
def round : ScalarFunction where
  name := "round"
  arity := (1, 2)
  apply
    | .null :: _ | [] => .ok .null
    | .number n :: rest => do
      let places ← (rest.head?.map places?).getD (.ok 0)
      return .number (roundTo places n)
    | v :: _ => .error (.type (.rounded v.kind))

/-- A number without its fraction; truth counts as 1 and falsehood as 0. -/
def toint : ScalarFunction where
  name := "toint"
  arity := (1, 1)
  apply
    | .boolean b :: _ => .ok (.number (.ofNat b.toNat))
    | .number n :: _ => .ok (.number n.truncate)
    | .null :: _ | [] => .ok .null
    | v :: _ => .error (.type (.madeInteger v.kind))

/-- The built-in scalar functions. -/
def all : List ScalarFunction := [round, toint]

end ScalarFunction

/-! ## Registry -/

/-- The functions that queries can call, under their names in lower case. -/
structure Registry where
  aggregates : List (String × Aggregate)
  scalars : List (String × ScalarFunction)

namespace Registry

def empty : Registry := ⟨[], []⟩

/-- Functions with one more under its name, in place of any other of that name. -/
def enter {α : Type} (name : String) (function : α) (functions : List (String × α)) :
    List (String × α) :=
  let key := Text.lowercase name
  (key, function) :: functions.filter (·.1 != key)

def registerAggregate (registry : Registry) (function : Aggregate) : Registry :=
  { registry with aggregates := enter function.name function registry.aggregates }

def registerScalar (registry : Registry) (function : ScalarFunction) : Registry :=
  { registry with scalars := enter function.name function registry.scalars }

/-- The registry of these functions, registered one after the other. -/
def ofFunctions (aggregates : List Aggregate) (scalars : List ScalarFunction) : Registry :=
  scalars.foldl registerScalar (aggregates.foldl registerAggregate empty)

/-- The built-in functions. -/
def standard : Registry := ofFunctions Aggregate.all ScalarFunction.all

/-- The built-in functions with one of these names. -/
def ofNames (names : List String) : Registry :=
  ofFunctions (Aggregate.all.filter (names.contains ·.name))
    (ScalarFunction.all.filter (names.contains ·.name))

def aggregate? (registry : Registry) (name : String) : Option Aggregate :=
  registry.aggregates.lookup (Text.lowercase name)

def scalar? (registry : Registry) (name : String) : Option ScalarFunction :=
  registry.scalars.lookup (Text.lowercase name)

def isAggregate (registry : Registry) (name : String) : Bool := (registry.aggregate? name).isSome

/-- The aggregate of this name, if a call of this form is well formed. -/
def checkAggregate (registry : Registry) (name : String) (args : Nat) (star : Bool) :
    Except QueryError Aggregate :=
  match registry.aggregate? name with
  | none => .error (.unknownFunction name)
  | some function =>
    if function.accepts args star then .ok function
    else .error (.argumentCount name function.argumentCount args)

/-- The value of a call of a scalar function. -/
def callScalar (registry : Registry) (name : String) (args : List Value) :
    Except QueryError Value :=
  match registry.scalar? name with
  | none => .error (.unknownFunction name)
  | some function =>
    let (least, most) := function.arity
    if args.length < least || most < args.length then
      .error (.argumentCount name function.argumentCount args.length)
    else function.apply args

/-- Names in quotes, in alphabetical order. -/
def quotedNames (names : List String) : String :=
  ", ".intercalate ((names.mergeSort (· ≤ ·)).map fun name => "\"" ++ name ++ "\"")

/-- The names of the registered functions, in lower case. -/
def shown (registry : Registry) : String :=
  "FunctionRegistry \x7b aggregates: [" ++ quotedNames (registry.aggregates.map (·.1)) ++
    "], scalars: [" ++ quotedNames (registry.scalars.map (·.1)) ++ "] \x7d"

end Registry

end TableQuery
