import Mathlib.Data.List.Induction
import Mathlib.Data.List.Infix
import TableQuery.Proofs.Scope

/-! # Brackets

A push opens a frame and a pop closes it; the other changes, those that put another frame in its
place included, stay in the innermost frame. So whatever happens between a push and its pop leaves
the scope as it was, as long as it closes no frame that it has not opened. -/

namespace TableQuery.Scope

/-! ## Changes -/

/-- What can be done to a scope. -/
inductive Change where
  | push
  | pop
  | setTable (name : String) (table : Table)
  | setLabel (label tableName : String)
  | rebind (table : Table)
  | replace (frame : Frame)

namespace Change

def apply (scope : Scope) : Change → Scope
  | push => scope.push
  | pop => scope.pop
  | setTable name table => scope.setTable name table
  | setLabel label tableName => scope.setLabel label tableName
  | rebind table => scope.rebind table
  | replace frame => scope.replace frame

def isPush : Change → Bool
  | push => true
  | _ => false

def isPop : Change → Bool
  | pop => true
  | _ => false

/-- The number of frames after a change, from the number before it. A pop leaves the last one. -/
def depthAfter (depth : Nat) : Change → Nat
  | push => depth + 1
  | pop => max 1 (depth - 1)
  | _ => depth

end Change

/-- The scope after changes, one after the other. -/
def after (scope : Scope) (changes : List Change) : Scope := changes.foldl Change.apply scope

def opens (changes : List Change) : Nat := changes.countP Change.isPush

def closes (changes : List Change) : Nat := changes.countP Change.isPop

/-- At no time have more frames been closed than opened. -/
def ClosesOwn (changes : List Change) : Prop :=
  ∀ before, before <+: changes → closes before ≤ opens before

instance (changes : List Change) : Decidable (ClosesOwn changes) :=
  decidable_of_iff (∀ before ∈ changes.inits, closes before ≤ opens before) (by
    simp only [ClosesOwn, List.mem_inits])

/-- The changes, and a pop for every frame that they leave open. -/
def closed (changes : List Change) : List Change :=
  changes ++ List.replicate (opens changes - closes changes) .pop

theorem after_append (scope : Scope) (before changes : List Change) :
    scope.after (before ++ changes) = (scope.after before).after changes :=
  List.foldl_append

/-! ## Depth -/

theorem depth_apply (scope : Scope) (change : Change) :
    (change.apply scope).depth = change.depthAfter scope.depth := by
  obtain ⟨innermost, outer⟩ := scope
  cases change with
  | pop =>
    cases outer with
    | nil => rfl
    | cons frame rest => simp [Change.apply, Change.depthAfter, pop, depth, frames]
  | _ => rfl

/-- The number of frames follows the pushes and pops, and a pop of the last frame is none. -/
theorem depth_after (scope : Scope) (changes : List Change) :
    (scope.after changes).depth = changes.foldl (fun depth change => change.depthAfter depth)
      scope.depth := by
  induction changes generalizing scope with
  | nil => rfl
  | cons change rest ih =>
    show (Scope.after (change.apply scope) rest).depth = _
    rw [ih, depth_apply]
    rfl

theorem one_le_depth (scope : Scope) : 1 ≤ scope.depth := Nat.succ_pos scope.outer.length

/-! ## What a bracket encloses -/

/-- Around the innermost frame there are `n` frames and then those of the base. -/
def Over (base : List Frame) (n : Nat) (scope : Scope) : Prop :=
  ∃ own : List Frame, own.length = n ∧ scope.outer = own ++ base

section

variable {base : List Frame} {scope : Scope} {n : Nat}

theorem over_push (scope : Scope) : Over scope.frames 0 scope.push := ⟨[], rfl, rfl⟩

theorem Over.pop (h : Over base (n + 1) scope) : Over base n scope.pop := by
  obtain ⟨own, hlength, houter⟩ := h
  cases own with
  | nil => cases hlength
  | cons frame rest =>
    refine ⟨rest, Nat.succ.inj hlength, ?_⟩
    rw [Scope.pop, houter]
    rfl

/-- A change leaves the base alone, if it does not close a frame that belongs to it. -/
theorem Over.apply (h : Over base n scope) {change : Change} {m : Nat}
    (hm : m + change.isPop.toNat = n + change.isPush.toNat) :
    Over base m (change.apply scope) := by
  cases change with
  | push =>
    obtain ⟨own, hlength, houter⟩ := h
    refine ⟨scope.innermost :: own, ?_, ?_⟩
    · rw [List.length_cons, hlength]
      exact hm.symm
    · show scope.innermost :: scope.outer = _
      rw [houter]
      rfl
  | pop =>
    have hn : n = m + 1 := hm.symm
    subst hn
    exact h.pop
  | _ =>
    cases hm
    exact h

/-- The frames around a bracket are there as long as it closes its own frames only. -/
theorem Over.after (h : Over base 0 scope) {changes : List Change} (hc : ClosesOwn changes) :
    Over base (opens changes - closes changes) (scope.after changes) := by
  -- from the last change on, since what counts is the balance of the changes before it
  induction changes using List.reverseRecOn with
  | nil => exact h
  | append_singleton changes change ih =>
    have hbefore : ClosesOwn changes := fun before hb =>
      hc before (hb.trans (List.prefix_append ..))
    have hchanges := hc changes (List.prefix_append ..)
    have hall := hc _ (List.prefix_refl _)
    have hopens : opens (changes ++ [change]) = opens changes + change.isPush.toNat := by
      rw [opens, List.countP_append, List.countP_singleton]
      cases change.isPush <;> rfl
    have hcloses : closes (changes ++ [change]) = closes changes + change.isPop.toNat := by
      rw [closes, List.countP_append, List.countP_singleton]
      cases change.isPop <;> rfl
    rw [after_append]
    refine (ih hbefore).apply ?_
    omega

theorem Over.pops (h : Over base n scope) :
    Over base 0 (scope.after (List.replicate n .pop)) := by
  induction n generalizing scope with
  | zero => exact h
  | succ n ih => exact ih h.pop

end

theorem Over.pop_eq {scope inner : Scope} (h : Over scope.frames 0 inner) : inner.pop = scope := by
  obtain ⟨own, hlength, houter⟩ := h
  obtain rfl := List.length_eq_zero_iff.mp hlength
  rw [Scope.pop, houter]
  rfl

/-- Between a push and a pop, changes that close only frames of their own leave no trace once the
frames that they leave open are closed. Whatever the changes, the last frame stays. -/
theorem bracket_restores (scope : Scope) :
    (∀ changes, ClosesOwn changes →
      let left := scope.after (.push :: closed changes ++ [.pop])
      left = scope ∧ (∀ name, left.find? name = scope.find? name) ∧
        (∀ name, left.table? name = scope.table? name) ∧
        ∀ label, left.tableName? label = scope.tableName? label) ∧
    ∀ changes, 1 ≤ (scope.after changes).depth ∧
      (scope.after changes).depth =
        changes.foldl (fun depth change => change.depthAfter depth) scope.depth := by
  refine ⟨fun changes hc => ?_, fun changes => ⟨one_le_depth _, depth_after scope changes⟩⟩
  have hrestored : scope.after (.push :: closed changes ++ [.pop]) = scope := by
    have hover : Over scope.frames 0 (scope.push.after (closed changes)) := by
      rw [closed, after_append]
      exact ((over_push scope).after hc).pops
    rw [after_append]
    exact hover.pop_eq
  intro left
  have hleft : left = scope := hrestored
  rw [hleft]
  exact ⟨rfl, fun _ => rfl, fun _ => rfl, fun _ => rfl⟩

/-- A frame is left open with another one in its place, after one that was closed. -/
theorem root_found_behind_bracket :
    let root := Scope.ofRoot (Frame.empty.setTable "t" ⟨"t", ["x"], []⟩)
    let changes : List Change := [.setTable "u" ⟨"u", ["y"], []⟩, .setLabel "t" "u", .push, .pop,
      .rebind ⟨"v", [], []⟩, .push, .replace (Frame.empty.setTable "t" ⟨"t", [], []⟩)]
    ClosesOwn changes ∧
      (root.after (.push :: closed changes ++ [.pop])).find? "t" = some ⟨"t", ["x"], []⟩ := by
  intro root changes
  have hc : ClosesOwn changes := by decide
  obtain ⟨-, hfind, -, -⟩ := (bracket_restores root).1 changes hc
  exact ⟨hc, hfind "t"⟩

end TableQuery.Scope
