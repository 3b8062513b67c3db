/-!
Wildcard patterns: `%` stands for any run of characters, `_` for exactly one, every other character
for itself. There is no way to escape a wildcard.

`Matches` is the meaning of a pattern, one rule per kind of character. `describes` decides it
without backtracking: it goes through the pattern from the right and keeps, for every suffix of the
value, whether that suffix matches the part of the pattern already seen.
-/

namespace TableQuery.Text.Wildcard

/-- The pattern, given second, describes the value. -/
inductive Matches : List Char → List Char → Prop where
  | done : Matches [] []
  | one {value pattern : List Char} (c : Char) :
      Matches value pattern → Matches (c :: value) ('_' :: pattern)
  | same {value pattern : List Char} (c : Char) :
      c ≠ '%' → c ≠ '_' → Matches value pattern → Matches (c :: value) (c :: pattern)
  | skip {value pattern : List Char} :
      Matches value pattern → Matches value ('%' :: pattern)
  | take {value pattern : List Char} (c : Char) :
      Matches value ('%' :: pattern) → Matches (c :: value) ('%' :: pattern)

/-- A pattern character other than `%` accepts this character. -/
def accepts (p c : Char) : Bool := p == '_' || p == c

/-- Each flag joined with all flags after it. -/
def anyLater : List Bool → List Bool
  | [] => []
  | flag :: rest =>
    let later := anyLater rest
    (flag || later.headD false) :: later

/-- For each suffix of the value, longest first and the empty one last, whether it matches. -/
def suffixFlags (value : List Char) : List Char → List Bool
  | [] => List.replicate value.length false ++ [true]
  | p :: pattern =>
    let flags := suffixFlags value pattern
    if p = '%' then anyLater flags
    else List.zipWith (fun c flag => accepts p c && flag) value flags.tail ++ [false]

/-- Whether the pattern describes the whole value. -/
def describes (value pattern : List Char) : Bool := (suffixFlags value pattern).headD false

end TableQuery.Text.Wildcard
