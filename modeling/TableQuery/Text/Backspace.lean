import TableQuery.Text.Cluster

/-!
Lines with backspaces in them, as they are typed ahead or sent through a pipe: each backspace takes
away the last cluster that is still there, and itself. The size of a cluster is kept in one byte, so
a cluster of 256 bytes or more loses only a part, and a cut that would fall inside a character has
no result. A line without backspaces stays as it is.
-/

namespace TableQuery.Text

/-- What is left of a line so far. -/
structure Edited where
  /-- The text, last character first. -/
  text : List Char
  /-- The sizes of its clusters in bytes, last one first, modulo 256. -/
  sizes : List Nat
  deriving DecidableEq, Repr

namespace Edited

def empty : Edited := ⟨[], []⟩

/-- Takes bytes off a text that is given last character first. -/
def dropBytes? (count : Nat) : List Char → Option (List Char)
  | [] => if count = 0 then some [] else none
  | c :: rest =>
    if count = 0 then some (c :: rest)
    else if c.utf8Size ≤ count then dropBytes? (count - c.utf8Size) rest
    else none

/-- Goes on with the next cluster, which may be a backspace. At the start it removes nothing. -/
def step? (edited : Edited) (cluster : List Char) : Option Edited :=
  if cluster = ['\x08'] then
    match edited.sizes with
    | [] => some edited
    | size :: sizes => (dropBytes? size edited.text).map (⟨·, sizes⟩)
  else
    let size := (String.ofList cluster).utf8ByteSize
    some ⟨cluster.reverse ++ edited.text, size % 256 :: edited.sizes⟩

theorem foldlM_step? (clusters : List (List Char)) (h : ['\x08'] ∉ clusters) (edited : Edited) :
    (clusters.foldlM step? edited).map (·.text) = some (clusters.flatten.reverse ++ edited.text) := by
  induction clusters generalizing edited with
  | nil => rfl
  | cons cluster rest ih =>
    have hc : cluster ≠ ['\x08'] := fun he => h (he ▸ List.mem_cons_self)
    have hr : ['\x08'] ∉ rest := fun hm => h (List.mem_cons_of_mem _ hm)
    have hs : step? edited cluster = some ⟨cluster.reverse ++ edited.text,
        (String.ofList cluster).utf8ByteSize % 256 :: edited.sizes⟩ := if_neg hc
    rw [List.foldlM_cons, hs]
    simpa using ih hr _

end Edited

/-- The line that is left when its backspaces have done their work. -/
def afterBackspaces? (line : List Char) : Option (List Char) :=
  ((clusters line).foldlM Edited.step? .empty).map (·.text.reverse)

/-- A line without backspaces stays as it is. -/
theorem afterBackspaces?_of_not_mem {line : List Char} (h : '\x08' ∉ line) :
    afterBackspaces? line = some line := by
  have hc : ['\x08'] ∉ clusters line := fun hm =>
    h (flatten_clusters line ▸ List.mem_flatten_of_mem hm (List.mem_singleton_self _))
  have ht := Edited.foldlM_step? (clusters line) hc .empty
  obtain ⟨edited, he, htext⟩ := Option.map_eq_some_iff.mp ht
  rw [afterBackspaces?, he, Option.map_some, htext, flatten_clusters]
  simp [Edited.empty]

end TableQuery.Text
