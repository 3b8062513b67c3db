import TableQuery.Table.Basic

/-!
Grouping: rows with the same keys come together, groups in the order of their first rows and rows in
their own order. Keys of different types differ, both zeros are one key, and so are all nulls; a
boolean cannot be a key.
-/

namespace TableQuery

/-- What has to be equal for two rows to be of one group. -/
inductive GroupKey where
  | null
  | number (n : Number)
  | text (s : String)
  deriving DecidableEq, Repr

/-- The key that a value is. A NaN is the key of its own bits. -/
def GroupKey.ofValue : Value → Except QueryError GroupKey
  | .null => .ok null
  | .number n => .ok (number (if n.isZero then .zero false else n))
  | .text s => .ok (text s)
  | .boolean b => .error (.groupingKey (.boolean b))

structure Group where
  keys : List GroupKey
  /-- The key columns alone, with the values they have on the first row. -/
  keyRow : Row
  rows : List Row

namespace Group

/-- Adds a row to its group, or behind all groups as a group of its own, which is where the key row
is needed. -/
def insert (keys : List GroupKey) (keyRow : Except QueryError Row) (row : Row) :
    List Group → Except QueryError (List Group)
  | [] => do return [⟨keys, ← keyRow, [row]⟩]
  | group :: rest =>
    if group.keys = keys then .ok ({ group with rows := group.rows ++ [row] } :: rest)
    else (group :: ·) <$> insert keys keyRow row rest

end Group

/-- The groups of rows by the columns and values that `key` gives for each of them. -/
def groupRows (table : String) (key : Row → Except QueryError (List (Column × Value)))
    (rows : List Row) : Except QueryError (List Group) :=
  rows.foldlM (fun groups row => do
    let cells ← key row
    let keys ← cells.mapM fun cell => GroupKey.ofValue cell.2
    let columns := cells.mapIdx fun i cell => cell.1.atIndex i
    Group.insert keys (Row.ofColumns table columns (cells.map (·.2))) row groups) []

end TableQuery
