import TableQuery.Proofs.Evaluation.Alike
import TableQuery.Proofs.Evaluation.Tasks

/-! # Nested queries

A query inside another one is executed in the frames of all queries around it. Going down, each of
these frames is either what a query has bound in its from item and joins, or a frame with its result
for the only table. The first kind adds no new meaning to a name that is known further out; the
second kind may do so. -/

namespace TableQuery

open Eval

/-- Executing the first query from the state `s` has a query executed from another state, at
whatever depth. On the way down, the frame of every query that has the next one in a late place is
clear. -/
inductive Nested (env : Environment) (clear : Frame → Prop) (top : Select) (s : State) :
    Select → State → Prop where
  | top : Nested env clear top s top s
  | inner {query inner : Select} {place : Place} {items : Frame} {t u : State}
    (h : Nested env clear top s query t)
    (he : query.Evaluates env t place items (.table inner) u)
    (hc : place.late = true → clear u.scope.innermost) : Nested env clear top s inner u

variable {env : Environment} {clear : Frame → Prop} {top query : Select} {s t : State}
  {place : Place} {items : Frame} {task : Task}

/-- Everything evaluated is evaluated in closed frames. -/
theorem Select.Evaluates.closed (h : query.Evaluates env s place items task t)
    (hs : ∀ frame ∈ s.scope.frames, frame.Closed) : ∀ frame ∈ t.scope.frames, frame.Closed := by
  have hsound := h.sound
  refine List.forall_mem_cons.mpr ⟨?_, ?_⟩
  · cases hl : place.late with
    | false =>
      rw [(hsound.early hl).1]
      exact hsound.binds.closed
    | true =>
      obtain ⟨result, hi, _⟩ := hsound.late hl
      rw [hi]
      exact items.closed_rebound result
  · rw [hsound.outer]
    exact hs

theorem Nested.closed (h : Nested env clear top s query t)
    (hs : ∀ frame ∈ s.scope.frames, frame.Closed) : ∀ frame ∈ t.scope.frames, frame.Closed := by
  induction h with
  | top => exact hs
  | inner _ he _ ih => exact he.closed ih

/-- The frames at the top are still there. -/
theorem Nested.mem_frames (h : Nested env clear top s query t) {frame : Frame}
    (hf : frame ∈ s.scope.frames) : frame ∈ t.scope.frames := by
  induction h with
  | top => exact hf
  | inner _ he _ ih =>
    refine List.mem_cons_of_mem _ ?_
    rw [he.sound.outer]
    exact ih

namespace Scope

variable {scope : Scope}

/-- In closed frames the name of a labelled table is a label. -/
theorem tableName?_of_tableName? (h : ∀ frame ∈ scope.frames, frame.Closed) {label name : String}
    (hl : scope.tableName? label = some name) : (scope.tableName? name).isSome := by
  obtain ⟨frame, hf, hn⟩ := List.exists_of_findSome?_eq_some hl
  obtain ⟨table, ht⟩ := Option.isSome_iff_exists.mp ((h frame hf).table label name hn)
  refine List.findSome?_isSome_iff.mpr ⟨frame, hf, ?_⟩
  rw [(h frame hf).ownLabel name table ht]
  rfl

/-- In closed frames no table stands under a name that is not a label. -/
theorem table?_eq_none (h : ∀ frame ∈ scope.frames, frame.Closed) {name : String}
    (hl : scope.tableName? name = none) : scope.table? name = none := by
  refine List.findSome?_eq_none_iff.mpr fun frame hf => ?_
  exact (h frame hf).table?_eq_none (List.findSome?_eq_none_iff.mp hl frame hf)

end Scope

/-! ## Frames that hide nothing -/

/-- A frame does not change what a name stands for in the frame `root`. -/
def Frame.Shows (root : Frame) (name : String) (frame : Frame) : Prop :=
  frame.find? name = none ∨ frame.find? name = root.find? name

theorem findSome?_eq_of_mem {α β : Type} {f : α → Option β} {r : Option β} :
    ∀ {as : List α}, (∀ a ∈ as, f a = none ∨ f a = r) → (∃ a ∈ as, f a = r) → as.findSome? f = r
  | [], _, he => by simp at he
  | a :: rest, h, he => by
    rw [List.findSome?_cons]
    cases hf : f a with
    | some b =>
      have hb := h a List.mem_cons_self
      rw [hf] at hb
      exact hb.resolve_left (Option.some_ne_none _)
    | none =>
      have hrest := fun b hb => h b (List.mem_cons_of_mem _ hb)
      obtain ⟨b, hb, hr⟩ := he
      rcases List.mem_cons.mp hb with rfl | hb
      · -- the element itself has the value, so all values are none
        rw [hf] at hr
        subst hr
        exact List.findSome?_eq_none_iff.mpr fun c hc => (hrest c hc).elim id id
      · exact findSome?_eq_of_mem hrest ⟨b, hb, hr⟩

theorem Scope.find?_of_shows {scope : Scope} {root : Frame} {name : String}
    (hroot : root ∈ scope.frames) (h : ∀ frame ∈ scope.frames, root.Shows name frame) :
    scope.find? name = root.find? name :=
  findSome?_eq_of_mem h ⟨root, hroot, rfl⟩

/-- What from items and joins bind changes no name that is known around the query: if it stands for
anything in the frame, then for the table that the query has read, and that one was found outside
under its own name. -/
theorem Select.Binds.shows {frame root : Frame} {scope : Scope} {name : String}
    (h : query.Binds scope frame) (hclosed : ∀ outer ∈ scope.frames, outer.Closed)
    (hshows : ∀ outer ∈ scope.frames, root.Shows name outer)
    (hknown : (scope.tableName? name).isSome) : root.Shows name frame := by
  have hne : ¬scope.tableName? name = none := fun hn => by
    rw [hn] at hknown
    cases hknown
  unfold Frame.Shows Frame.find?
  cases ht : frame.table? name with
  | none =>
    left
    cases hl : frame.tableName? name with
    | none => rfl
    | some found =>
      have he : name = found := (h.labels name found hl).resolve_right hne
      have hs := h.closed.table name found hl
      rw [← he, ht] at hs
      cases hs
  | some base =>
    right
    have hb : query.base? scope = some base := (h.tables name base ht).resolve_right hne
    have hname : base.name = name := h.closed.name name base ht
    obtain ⟨key, hkey⟩ : ∃ key, scope.find? key = some base := by
      unfold Select.base? at hb
      split at hb
      · exact ⟨_, hb⟩
      · cases hb
    obtain ⟨outer, ho, hf⟩ := List.exists_of_findSome?_eq_some hkey
    have hown : outer.find? name = some base := by
      have htable := (hclosed outer ho).table?_of_find? hf
      rw [hname] at htable
      rw [Frame.find?, htable]
      rfl
    have hr := (hshows outer ho).resolve_left (by rw [hown]; exact Option.some_ne_none _)
    rw [hown] at hr
    exact hr

/-- A query is executed in frames that hide nothing, if the frames in late places are clear. -/
theorem Nested.shows {root : Frame} {reads : String → Prop}
    (h : Nested env (fun frame => ∀ name, reads name → frame.find? name = none) top s query t)
    (hroot : root ∈ s.scope.frames) (hclosed : ∀ frame ∈ s.scope.frames, frame.Closed)
    (hknown : ∀ name, reads name → (root.tableName? name).isSome)
    (hs : ∀ name, reads name → ∀ frame ∈ s.scope.frames, root.Shows name frame) :
    ∀ name, reads name → ∀ frame ∈ t.scope.frames, root.Shows name frame := by
  induction h with
  | top => exact hs
  | @inner query inner place items t u h he hc ih =>
    intro name hn
    have hsound := he.sound
    refine List.forall_mem_cons.mpr ⟨?_, by rw [hsound.outer]; exact ih name hn⟩
    cases hl : place.late with
    | true => exact .inl (hc hl name hn)
    | false =>
      rw [(hsound.early hl).1]
      refine hsound.binds.shows (h.closed hclosed) (ih name hn) ?_
      exact List.findSome?_isSome_iff.mpr ⟨root, h.mem_frames hroot, hknown name hn⟩

end TableQuery
