import TableQuery.Query.Operator
import TableQuery.Table.Basic
import TableQuery.Value.Comparison

/-!
Sorting by several keys, each with its own direction. The sort is stable, and nulls come first in
ascending order. All values of one key have to be of one type, nulls aside, which is checked before
anything is compared.
-/

namespace TableQuery

/-! ## Comparing keys -/

def Direction.apply : Direction → Ordering → Ordering
  | ascending, order => order
  | descending, order => order.swap

/-- The order of two lists of keys: that of the first keys that differ. -/
def compareKeys : List Direction → List Value → List Value → Ordering
  | d :: ds, a :: as, b :: bs =>
    match d.apply ((a.sortCompare? b).getD .eq) with
    | .eq => compareKeys ds as bs
    | order => order
  | _, _, _ => .eq

/-! ## Checking keys -/

/-- Two types that values have, if there are two; nulls have none. -/
def mixedKinds? (values : List Value) : Option (Kind × Kind) :=
  match values.filter (!·.isNull) with
  | [] => none
  | first :: rest => (rest.find? (·.kind != first.kind)).map fun v => (first.kind, v.kind)

/-- The first of `width` keys that has values of two types. -/
def mixedKey? (keys : List (List Value)) (width : Nat) : Option TypeFault :=
  (List.range width).findSome? fun (i : Nat) =>
    (mixedKinds? (keys.filterMap (·[i]?))).map fun (a, b) => .sortKey (i + 1) a b

/-! ## Sorting -/

/-- The rows of a table sorted by the keys that `key` gives for each of them. -/
def Table.sort (table : Table) (directions : List Direction)
    (key : Row → Except QueryError (List Value)) : Except QueryError Table := do
  let keys ← table.rows.mapM key
  match mixedKey? keys directions.length with
  | some fault => .error (.type fault)
  | none =>
    let sorted := (keys.zip table.rows).mergeSort fun a b =>
      compareKeys directions a.1 b.1 != .gt
    return table.withRows (sorted.map (·.2))

end TableQuery
