import TableQuery.Proofs.Engine.History
import TableQuery.Proofs.Evaluation.Nesting
import TableQuery.Proofs.Evaluation.Pipeline

/-! # Uniform tables in every session

If a caller binds tables that were made of lists of values, then all tables are uniform in every
frame and after every stage of every query, and a reference means the same on all rows of a table. -/

namespace TableQuery

open Eval

/-- The table was made of a name, fields and lists of values. -/
def Table.FromValues (table : Table) : Prop :=
  ∃ name fields rows, Table.ofValues name fields rows = .ok table

/-- Every column of a task has a value, in its row and in the rows of its group. -/
structure Task.Indexed (task : Task) : Prop where
  row : ∀ row, task.row? = some row → row.Indexed
  group : ∀ rows, task.group? = some rows → ∀ row ∈ rows, row.Indexed

namespace Task

variable {expr : Expr} {row : Row}

theorem indexed_none : (Task.value expr .none).Indexed :=
  ⟨forall_of_eq_none rfl, forall_of_eq_none rfl⟩

theorem indexed_table (query : Select) : (Task.table query).Indexed :=
  ⟨forall_of_eq_none rfl, forall_of_eq_none rfl⟩

theorem indexed_ofRow (h : row.Indexed) : (Task.value expr (.ofRow row)).Indexed :=
  ⟨(Context.indexed_ofRow h).row, forall_of_eq_none rfl⟩

theorem indexed_column (ref : ColumnRef) (h : row.Indexed) : (Task.column ref row).Indexed :=
  ⟨(Context.indexed_ofRow h).row, forall_of_eq_none rfl⟩

theorem indexed_ofGroup {group : Group} (h : group.Indexed) (hr : row.Indexed) :
    (Task.value expr (.ofGroup row group.rows)).Indexed := ⟨(h.context hr).row, (h.context hr).group⟩

end Task

variable {env : Environment} {query top : Select} {s t : State} {place : Place} {items : Frame}
  {task : Task}

namespace Select

theorem groupsEnsures (env : Environment) (query : Select) {ref : TableRef} {table : Table}
    (ht : table.Joins env ref query.joins) :
    (Clause.groups env.functions query.groupBy query.columns table).Ensures False fun groups =>
      ∀ group ∈ groups, group.Indexed :=
  Clause.groups_ensures env.functions query.groupBy query.columns ht.indexed

/-- Everything is evaluated where all tables are uniform, and on rows whose columns have values. -/
theorem Evaluates.uniform (h : query.Evaluates env s place items task t) (hs : s.Uniform) :
    t.Uniform ∧ task.Indexed := by
  have hparts := query.uniformParts env
  have hopened := hs.opened
  induction h with
  | single hsource hc ht => exact ⟨hopened.of_restored ht, Task.indexed_none⟩
  | derived hsource hi ht => exact ⟨hopened.of_restored ht, Task.indexed_table _⟩
  | joinDerived hsource hj hl hi ht =>
    have hjoined := hparts.joined hsource fun join hm => hj ▸ List.mem_append_left _ hm
    exact ⟨(hjoined.after hopened hl).of_restored ht, Task.indexed_table _⟩
  | @on ref before after join left right condition l r u v t hsource hj hl hr hc hlr hrr ht =>
    have hjoined := hparts.joined hsource fun join hm => hj ▸ List.mem_append_left _ hm
    have hu := hjoined.after hopened hl
    obtain ⟨_, _, hlaid⟩ := hjoined.value _ _ _ hopened hl
    have hm : join ∈ query.joins := hj ▸ List.mem_append_right _ List.mem_cons_self
    have hright : (evaluateTableRef env true join.table).Ensures False _ :=
      evaluateTableRef_ensures true (hparts.joins join hm)
    have hreads := hright.value _ _ _ hu hr
    refine ⟨(hright.after hu hr).of_restored ht, Task.indexed_ofRow ?_⟩
    exact (hlaid.join hreads.uniform hlr (.inl hrr)).indexed
  | filter hsource hj hf hr ht =>
    have hjoined := hparts.joined hsource fun _ hm => hm
    have hrows := (hjoined.value _ _ _ hopened hj).indexed
    exact ⟨(hjoined.after hopened hj).of_restored ht, Task.indexed_ofRow (hrows _ hr)⟩
  | list hsource hf hg hc hr ht =>
    have hfiltered := hparts.filtered hsource
    have hrows := (hfiltered.value _ _ _ hopened hf).indexed
    exact ⟨(hfiltered.after hopened hf).of_restored ht, Task.indexed_ofRow (hrows _ hr)⟩
  | key hsource hf hk hr =>
    have hfiltered := hparts.filtered hsource
    have hrows := (hfiltered.value _ _ _ hopened hf).indexed
    exact ⟨hfiltered.after hopened hf, Task.indexed_column _ (hrows _ hr)⟩
  | groupList hsource hf hg hc hm ht =>
    have hfiltered := hparts.filtered hsource
    have hgroups := groupsEnsures env query (hfiltered.value _ _ _ hopened hf)
    have hu := hfiltered.after hopened hf
    have hindexed := hgroups.value _ _ _ hu hg _ hm
    exact ⟨(hgroups.after hu hg).of_restored ht, Task.indexed_ofGroup hindexed hindexed.keyRow⟩
  | @having ref table projected groups condition row group u v w t hsource hf hg hp hc hm ht =>
    have hfiltered := hparts.filtered hsource
    have hgroups := groupsEnsures env query (hfiltered.value _ _ _ hopened hf)
    have hu := hfiltered.after hopened hf
    have hv := hgroups.after hu hg
    have hindexed := hgroups.value _ _ _ hu hg
    have htable := hparts.groupTable (Clause.groupedName table) hindexed
    have hprojected := htable.value _ _ _ hv hp
    obtain ⟨hrow, hgroup⟩ := List.of_mem_zip hm
    refine ⟨((htable.after hv hp).overProjection hprojected).of_restored ht, ?_⟩
    exact Task.indexed_ofGroup (hindexed _ hgroup) (hprojected.indexed _ hrow)
  | order hsource hf hr hk hm =>
    have hselected := hparts.selected hsource
    have hrows := (hselected.value _ _ _ hopened hr).indexed
    exact ⟨hselected.after hopened hr, Task.indexed_column _ (hrows _ hm)⟩
  | offset hsource hf hr hc ht =>
    exact ⟨((hparts.ordered hsource).after hopened hr).of_restored ht, Task.indexed_none⟩
  | limit hsource hf hr hc ht =>
    exact ⟨((hparts.skipped hsource).after hopened hr).of_restored ht, Task.indexed_none⟩
  | operand h hp ht ih => exact ⟨ih.1.of_restored ht, ih.2.row, ih.2.group⟩
  | argument h ha hg hr ht ih =>
    exact ⟨(ih.1.of_restored ht).inSource, Task.indexed_ofRow (ih.2.group _ hg _ hr)⟩
  | column h hr ih => exact ⟨ih.1, Task.indexed_column _ (ih.2.row _ hr)⟩
  | table h hq ht ih => exact ⟨ih.1.of_restored ht, Task.indexed_table _⟩

end Select

/-- A query nested at whatever depth is called where all tables are uniform. -/
theorem Nested.uniform {clear : Frame → Prop} (h : Nested env clear top s query t)
    (hs : s.Uniform) : t.Uniform := by
  induction h with
  | top => exact hs
  | inner _ he _ ih => exact (he.uniform ih).1

/-! ## Sessions -/

namespace Engine

/-- Binding keeps tables uniform, so a caller's frame has uniform tables only. -/
theorem uniform_session (settings : Settings) (functions : Registry)
    (bindings : List (String × Table)) (calls : List Call)
    (hb : ∀ binding ∈ allBindings bindings calls, binding.2.FromValues) :
    (session settings functions bindings calls).state.Uniform := by
  have hrests := rests_session settings functions bindings calls
  have hholds := Frame.holds_bindAll (allBindings bindings calls)
  have hroot : (Frame.empty.bindAll (allBindings bindings calls)).Uniform := by
    intro table ht
    obtain ⟨⟨name, bound⟩, hm, rfl⟩ := List.mem_map.mp ht
    obtain ⟨last, hl, rfl⟩ := (hholds.tables name bound).mp hm
    obtain ⟨_, _, hsplit, _⟩ := List.lookup_eq_some_iff.mp hl
    have hlast : (name, last) ∈ allBindings bindings calls := by
      rw [← List.mem_reverse]
      simp [hsplit]
    obtain ⟨own, fields, rows, hvalues⟩ := hb _ hlast
    exact (Table.uniform_ofValues hvalues).named name
  refine ⟨?_, fun frame hf => ?_⟩
  · rw [hrests.scope]
    exact List.forall_mem_singleton.mpr hroot
  · rw [hrests.groupSource] at hf
    cases hf

end Engine

end TableQuery
