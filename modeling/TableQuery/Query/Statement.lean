import TableQuery.Query.Grammar

/-!
Statements and scripts. A statement is one query; a semicolon has to close it where anything
follows, and a script is a sequence of statements closed that way.
-/

namespace TableQuery.Grammar

/-- A query and the semicolon behind it, which the last statement need not have. -/
def statement (c : Cursor) : Parsed Select c.length := do
  let ⟨query, c₁, h₁⟩ ← select c
  if c₁.isAtEnd then return ⟨query, c₁, h₁⟩
  else
    let ⟨_, c₂, h₂⟩ ← c₁.take .semicolon "Expected ';' at the end of a statement"
    return ⟨query, c₂, Cursor.length_lt_trans h₂ h₁⟩

/-- One statement and nothing behind it. -/
def single (c : Cursor) : Parsed Select c.length := do
  let ⟨query, c₁, h₁⟩ ← statement c
  if c₁.isAtEnd then return ⟨query, c₁, h₁⟩
  else .error (c₁.unexpected "Expected end of input after statement")

/-- All statements up to the end, possibly none. -/
def script (c : Cursor) : Parsed (List Select) (c.length + 1) := do
  if c.isAtEnd then return ⟨[], c, c.length_lt_succ⟩
  else
    let ⟨query, c₁, h₁⟩ ← statement c
    let ⟨queries, c₂, h₂⟩ ← script c₁
    return ⟨query :: queries, c₂, Cursor.length_lt_succ_trans h₂ h₁⟩
termination_by c.length

/-- The value that a rule reads from a text. What is left behind it does not matter. -/
def read {α : Type} {bound : Cursor → Nat} (rule : (c : Cursor) → Parsed α (bound c))
    (text : String) : Except ParseError α := do
  let c ← Cursor.ofText? text
  match rule c with
  | .ok step => .ok step.value
  | .error failure => .error failure.error

end TableQuery.Grammar

namespace TableQuery

/-- The one statement of a text. -/
def Select.ofText? (text : String) : Except ParseError Select := Grammar.read Grammar.single text

/-- The statements of a script. -/
def Select.scriptOfText? (text : String) : Except ParseError (List Select) :=
  Grammar.read Grammar.script text

/-- The expression that a text begins with. -/
def Expr.ofText? (text : String) : Except ParseError Expr := Grammar.read Grammar.expression text

end TableQuery
