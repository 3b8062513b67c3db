import TableQuery.Text.Basic
import TableQuery.Text.ClusterTable

/-!
User-perceived characters: a text is cut into extended grapheme clusters. A character belongs to the
cluster before it where `BreakClass.joins` says so, which looks back no further than that cluster.
Nothing is lost: the clusters of a text, one after the other, are the text.
-/

namespace TableQuery.Text

/-! ## Classes -/

/-- What a character means for the cluster it stands in. -/
inductive BreakClass where
  | carriageReturn
  | lineFeed
  | control
  | extend
  | linker
  | joiner
  | nonJoiner
  | spacing
  | prepended
  | regional
  | leadingJamo
  | vowelJamo
  | trailingJamo
  | openSyllable
  | closedSyllable
  | consonant
  | pictograph
  | other
  deriving DecidableEq, Repr

namespace BreakClass

def ofRanges : List (List (Nat × Nat) × BreakClass) :=
  [(controlRanges, control), (extendRanges, extend), (linkerRanges, linker),
   (spacingRanges, spacing), (prependedRanges, prepended), (regionalRanges, regional),
   (leadingRanges, leadingJamo), (vowelRanges, vowelJamo), (trailingRanges, trailingJamo),
   (consonantRanges, consonant), (pictographRanges, pictograph)]

/-- The class of a character. Of the Hangul syllables, each twenty-eighth one has no final. -/
def ofChar (c : Char) : BreakClass :=
  if ' ' ≤ c ∧ c ≤ '~' then other
  else if c = '\r' then carriageReturn
  else if c = '\n' then lineFeed
  else if c = '\u200c' then nonJoiner
  else if c = '\u200d' then joiner
  else if '\uac00' ≤ c ∧ c ≤ '\ud7a3' then
    if (c.toNat - 0xAC00) % 28 = 0 then openSyllable else closedSyllable
  else ((ofRanges.find? fun entry => inRanges entry.1 c).map (·.2)).getD other

/-! ## Rules -/

/-- Stands alone, save for a line feed behind a carriage return. -/
def isControl (cls : BreakClass) : Bool := cls ∈ [carriageReturn, lineFeed, control]

/-- Marks that stand over or under what they follow. -/
def isMark (cls : BreakClass) : Bool := cls ∈ [extend, linker, nonJoiner]

/-- May stand between the consonants of a conjunct. -/
def isConjunctMark (cls : BreakClass) : Bool := cls ∈ [extend, linker, joiner]

/-- Two parts of one Hangul syllable. -/
def formsSyllable : BreakClass → BreakClass → Bool
  | leadingJamo, next => next ∈ [leadingJamo, vowelJamo, openSyllable, closedSyllable]
  | openSyllable, next | vowelJamo, next => next ∈ [vowelJamo, trailingJamo]
  | closedSyllable, next | trailingJamo, next => next = trailingJamo
  | _, _ => false

/-- These classes, last one first, end in a consonant and marks that link it to another one. -/
def endsLinked (before : List BreakClass) : Bool :=
  linker ∈ before.takeWhile isConjunctMark
    && (before.dropWhile isConjunctMark).head? = some consonant

/-- These classes, last one first, end in a pictograph and its marks. -/
def endsPictograph (before : List BreakClass) : Bool :=
  (before.dropWhile isMark).head? = some pictograph

/-- Whether a character of a class belongs to the cluster whose classes, last one first, are
`before`. Regional indicators pair up. -/
def joins (next : BreakClass) : List BreakClass → Bool
  | [] => false
  | last :: before =>
    if last.isControl || next.isControl then last = carriageReturn && next = lineFeed
    else next.isMark || next ∈ [joiner, spacing] || last = prepended
      || last.formsSyllable next
      || (next = consonant && endsLinked (last :: before))
      || (next = pictograph && last = joiner && endsPictograph before)
      || (next = regional && last = regional && before.head? ≠ some regional)

end BreakClass

/-! ## Texts -/

/-- The clusters of a text that follows the open cluster `cluster`, last character first, whose
classes are `classes`. -/
def clustersFrom (classes : List BreakClass) (cluster : List Char) : List Char → List (List Char)
  | [] => [cluster.reverse]
  | c :: rest =>
    let next := BreakClass.ofChar c
    if next.joins classes then clustersFrom (next :: classes) (c :: cluster) rest
    else cluster.reverse :: clustersFrom [next] [c] rest

/-- The clusters of a text. -/
def clusters : List Char → List (List Char)
  | [] => []
  | c :: rest => clustersFrom [BreakClass.ofChar c] [c] rest

theorem flatten_clustersFrom (classes : List BreakClass) (cluster cs : List Char) :
    (clustersFrom classes cluster cs).flatten = cluster.reverse ++ cs := by
  induction cs generalizing classes cluster with
  | nil => simp [clustersFrom]
  | cons c rest ih =>
    simp only [clustersFrom]
    split <;> simp [ih]

theorem flatten_clusters (cs : List Char) : (clusters cs).flatten = cs := by
  cases cs with
  | nil => rfl
  | cons c rest => simp [clusters, flatten_clustersFrom]

end TableQuery.Text
