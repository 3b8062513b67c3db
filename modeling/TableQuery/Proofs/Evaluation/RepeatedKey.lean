import TableQuery.Proofs.Evaluation.Grouping
import TableQuery.Proofs.Evaluation.RenamedQuery
import TableQuery.Proofs.Evaluation.Same
import TableQuery.Proofs.Table.KeyRow

/-! # Grouping by a column twice

A grouping column that is listed twice does not change the groups, and aggregates do not notice it.
But the key row then has the column twice, and where the select list asks for that column it is
ambiguous; this is the only way in which the query fares otherwise. -/

namespace TableQuery

open Eval

/-- The reference at another position. -/
def ColumnRef.placed (ref : ColumnRef) (pos : Position) : ColumnRef := { ref with pos }

/-- The second query lists one of the grouping columns of the first once more. -/
def Select.RepeatsKey (query again : Select) (ref : ColumnRef) : Prop :=
  .column ref ∈ query.groupBy ∧ ∃ before after pos, query.groupBy = before ++ after ∧
    again = { query with groupBy := before ++ .column (ref.placed pos) :: after }

variable {env : Environment} {query again : Select} {ref : ColumnRef} {s t u : State}
  {table result : Table} {columns : List SelectColumn} {groups groups' : List Group}

/-! ## Groups with longer keys -/

/-- The same rows. The key row has the cell of `ref` once more. -/
structure Group.Doubled (scope : Scope) (ref : ColumnRef) (group group' : Group) : Prop where
  rows : group.rows = group'.rows
  keyRow : ∃ name first before cell after, KeyCells scope ref (before ++ after) cell first ∧
    group.keyRow = Row.ofCells name (before ++ after) ∧
      group'.keyRow = Row.ofCells name (before ++ cell :: after)

namespace Clause

variable {before after : List Expr}

theorem both_groupColumns (hm : .column ref ∈ before ++ after) (pos : Position) :
    Both (fun refs refs' => ref ∈ refs ∧ ∃ front back, refs = front ++ back ∧
        refs' = front ++ ref.placed pos :: back)
      (groupColumns (before ++ after))
      (groupColumns (before ++ .column (ref.placed pos) :: after)) := by
  have hmem : ∀ refs, groupColumns (before ++ after) = .ok refs → ref ∈ refs := by
    intro refs hrefs
    rw [groupColumns_ok hrefs] at hm
    obtain ⟨other, ho, he⟩ := List.mem_map.mp hm
    cases he
    exact ho
  have happend : ∀ keys rest, groupColumns (keys ++ rest) = (do
      let front ← groupColumns keys
      let back ← groupColumns rest
      return front ++ back) := fun keys rest => List.mapM_append
  have hcons : before ++ .column (ref.placed pos) :: after =
      before ++ ([.column (ref.placed pos)] ++ after) := rfl
  rw [happend] at hmem ⊢
  rw [hcons, happend, happend]
  cases hfront : groupColumns before with
  | error e => exact .error
  | ok front =>
    cases hback : groupColumns after with
    | error e => exact .error
    | ok back =>
      rw [hfront, hback] at hmem
      exact .ok ⟨hmem _ rfl, front, back, rfl, rfl⟩

/-- The groups are the same, each with a cell of its key row once more. -/
theorem relates_groups_again (hm : .column ref ∈ before ++ after) (pos : Position)
    (functions : Registry) (columns : List SelectColumn) (table : Table) (scope : Scope) :
    Relates (fun s t => s = t ∧ s.scope = scope) (List.Forall₂ (Group.Doubled scope ref))
      (Clause.groups functions (before ++ after) columns table)
      (Clause.groups functions (before ++ .column (ref.placed pos) :: after) columns table) := by
  refine .reading fun s t hs => ?_
  obtain ⟨rfl, rfl⟩ := hs
  refine (both_groupColumns hm pos).bind fun refs refs' hrefs => ?_
  refine (Both.refl (checkGroupable functions columns)).bind fun _ _ _ => ?_
  obtain ⟨href, front, back, rfl, rfl⟩ := hrefs
  obtain ⟨source, hsource⟩ := List.mem_iff_getElem?.mp href
  have hcells : ∀ row, Both (ListedAgain source front.length)
      ((front ++ back).mapM fun ref => s.scope.resolve ref row)
      ((front ++ ref.placed pos :: back).mapM fun ref => s.scope.resolve ref row) := by
    intro row
    have hlisted : ListedAgain source front.length (front ++ back) (front ++ ref :: back) :=
      ⟨front, ref, back, rfl, rfl, rfl, hsource⟩
    have hsame : (front ++ ref.placed pos :: back).mapM (fun ref => s.scope.resolve ref row) =
        (front ++ ref :: back).mapM fun ref => s.scope.resolve ref row := by
      rw [List.mapM_append, List.mapM_append, List.mapM_cons, List.mapM_cons]
      rfl
    rw [hsame]
    exact hlisted.both_mapM _
  refine (both_groupRows_again hcells table.rows).mono fun groups groups' hgroups => ?_
  refine hgroups.imp fun group group' hgroup => ⟨hgroup.rows, ?_⟩
  obtain ⟨first, own, own', hown, hlisted, hrow, hrow'⟩ := hgroup.keyRow
  obtain ⟨before, cell, after, rfl, rfl, -, hcell⟩ := hlisted
  obtain ⟨found, hfound, hresolved⟩ := forall₂_getElem? (forall₂_of_mapM hown) hsource
  cases hcell.symm.trans hfound
  refine ⟨table.name, first, before, cell, after, ⟨fun c hc => ?_, hresolved, ?_⟩, hrow, hrow'⟩
  · obtain ⟨key, -, hkey⟩ := exists_mem_of_mapM hown c hc
    exact ⟨key, hkey⟩
  · exact List.mem_of_getElem? hcell

end Clause

/-! ## Results of groups -/

/-- On the key row of one of the groups, a column of the select list is the one that `ref` means. -/
def Group.Asked (scope : Scope) (ref : ColumnRef) (columns : List SelectColumn)
    (groups : List Group) : Prop :=
  ∃ group ∈ groups, ∃ column ∈ columns, ∃ col found, column.expr = .column col ∧
    scope.resolve col group.keyRow = .ok found ∧ scope.resolve ref group.keyRow = .ok found

/-- Calls of aggregates do not look at the key row. -/
theorem evaluate_ofGroup_congr {expr : Expr} (h : Clause.groupable env.functions expr = true)
    (hcol : ∀ col, expr ≠ .column col) (keyRow keyRow' : Row) (rows : List Row) :
    evaluate env expr (.ofGroup keyRow rows) = evaluate env expr (.ofGroup keyRow' rows) := by
  unfold Clause.groupable at h
  split at h
  · next col => exact absurd rfl (hcol col)
  · unfold Expr.functionName? at h
    split at h
    · next pos cpos name args star _ =>
      have ha : env.functions.isAggregate name = true := by simpa using h
      simp only [evaluate, Expr.calleeName?, Meaning.call, ha, if_true]
      rfl
    · cases h

namespace Group.Doubled

variable {group group' : Group}

theorem same_column (h : group.Doubled s.scope ref group') {col : ColumnRef}
    (hcol : ∀ found, s.scope.resolve col group.keyRow = .ok found →
      s.scope.resolve ref group.keyRow ≠ .ok found) :
    Same s (evaluate env (.column col) (.ofGroup group'.keyRow group'.rows))
      (evaluate env (.column col) (.ofGroup group.keyRow group.rows)) := by
  obtain ⟨-, name, first, before, cell, after, hcells, hrow, hrow'⟩ := h
  rw [hrow] at hcol ⊢
  rw [hrow']
  refine ⟨fun t ht => ?_, evaluate_moves_restored env _ _⟩
  simp only [evaluate, Context.ofGroup, runFrom_reading, ht.scope, hcells.value_again hcol]

theorem same_groupRow (h : group.Doubled s.scope ref group')
    (hc : ∀ column ∈ columns, Clause.groupable env.functions column.expr = true)
    (hcol : ∀ column ∈ columns, ∀ col found, column.expr = .column col →
      s.scope.resolve col group.keyRow = .ok found → s.scope.resolve ref group.keyRow ≠ .ok found)
    (name : String) (fields : List String) :
    Same s (Clause.groupRow name fields (columns.map fun column => evaluate env column.expr) group')
      (Clause.groupRow name fields (columns.map fun column => evaluate env column.expr) group) := by
  refine .bind (.mapM fun meaning hm => .mapError _ ?_) fun values => .ofExcept _
  obtain ⟨column, hcolumn, rfl⟩ := List.mem_map.mp hm
  by_cases hexpr : ∃ col, column.expr = .column col
  · obtain ⟨col, he⟩ := hexpr
    simp only [he]
    exact h.same_column fun found => hcol column hcolumn col found he
  · have hsame : evaluate env column.expr (.ofGroup group'.keyRow group'.rows) =
        evaluate env column.expr (.ofGroup group.keyRow group'.rows) :=
      evaluate_ofGroup_congr (hc column hcolumn) (not_exists.mp hexpr) _ _ _
    rw [hsame, ← h.rows]
    exact .refl (evaluate_moves_restored env column.expr _)

/-- The column that is there twice is not found on the key row. -/
theorem not_returns (h : group.Doubled s.scope ref group') {col : ColumnRef}
    {found : Column × Value} (hcol : s.scope.resolve col group.keyRow = .ok found)
    (href : s.scope.resolve ref group.keyRow = .ok found) {v : Value} (ht : s.Restored t) :
    ¬Returns (evaluate env (.column col) (.ofGroup group'.keyRow group'.rows)) t v u := by
  intro hr
  obtain ⟨-, name, first, before, cell, after, hcells, hrow, hrow'⟩ := h
  obtain ⟨column, hcolumn⟩ := evaluate_column_returns rfl hr
  rw [hrow] at hcol href
  rw [hrow', ht.scope] at hcolumn
  exact hcells.not_resolve_again hcol href _ hcolumn

end Group.Doubled

namespace Clause

/-- Where the column is not asked for, the groups give the same results. -/
theorem same_groupTable (h : List.Forall₂ (Group.Doubled s.scope ref) groups groups')
    (hc : ∀ column ∈ columns, groupable env.functions column.expr = true)
    (hasked : ¬Group.Asked s.scope ref columns groups) (name : String) (fields : List String) :
    Same s (groupTable name fields (columns.map fun column => evaluate env column.expr) groups')
      (groupTable name fields (columns.map fun column => evaluate env column.expr) groups) := by
  have hmem := (List.forall₂_and_left groups groups').mpr ⟨fun group hm => hm, h⟩
  refine .bind (.forall₂_mapM (hmem.imp fun group group' hgroup => ?_)) fun rows => .pure _
  exact hgroup.2.same_groupRow hc (fun column hm col found he hcol href =>
    hasked ⟨group, hgroup.1, column, hm, col, found, he, hcol, href⟩) name fields

/-- Where the column is asked for, the groups give no result. -/
theorem not_groupTable_of_asked (h : List.Forall₂ (Group.Doubled s.scope ref) groups groups')
    (hasked : Group.Asked s.scope ref columns groups) (name : String) :
    ¬Returns (groupTable name (outputNames columns)
      (columns.map fun column => evaluate env column.expr) groups') s result t := by
  intro hr
  obtain ⟨group, hm, column, hc, col, found, he, hcol, href⟩ := hasked
  obtain ⟨group', hm', hgroup⟩ := exists_mem_of_forall₂ h hm
  obtain ⟨-, -, hrows⟩ := groupTable_values hr
  obtain ⟨row, -, -, hvalues⟩ := exists_mem_of_forall₂ hrows hm'
  obtain ⟨v, -, u, w, hu, hv⟩ := exists_mem_of_forall₂ hvalues hc
  rw [he] at hv
  exact hgroup.not_returns hcol href hu hv

/-- `having` looks at the rows of the groups alone. -/
theorem outcomes_having (h : List.Forall₂ (fun group group' : Group => group.rows = group'.rows)
    groups groups') (condition : Option Meaning) (table : Table) (s : State) :
    Outcomes Eq Eq ((having condition groups table).runFrom s)
      ((having condition groups' table).runFrom s) := by
  cases condition with
  | none => exact .refl _
  | some meaning =>
    have hzip := forall₂_zip (List.forall₂_same.mpr fun row (_ : row ∈ table.rows) => rfl) h
    have hcondition : ∀ pair pair' : Row × Group, pair.1 = pair'.1 ∧ pair.2.rows = pair'.2.rows →
        Relates Eq Eq (Clause.condition meaning (.ofGroup pair.1 pair.2.rows))
          (Clause.condition meaning (.ofGroup pair'.1 pair'.2.rows)) := by
      intro pair pair' hpair s t hs
      rw [hpair.1, hpair.2, hs]
      exact .refl _
    have hkeep := (relator Eq).keepM hzip hcondition
      ⟨s.scope.rebind table, some s.scope.innermost, s.labelCounter⟩ _ rfl
    refine Outcomes.bind (S := Eq) (hkeep.leaving (congrArg fun after : State =>
      { after with groupSource := s.groupSource })) fun kept kept' u v _ _ hkept huv => ?_
    have hrows : kept.map (·.1) = kept'.map (·.1) :=
      map_eq_map_of_forall₂ (hkept.imp fun _ _ hpair => hpair.1)
    rw [huv, hrows]
    exact .refl _

/-- Where the column is not asked for, everything behind the groups is the same. -/
theorem outcomes_grouped (h : List.Forall₂ (Group.Doubled s.scope ref) groups groups')
    (hc : ∀ column ∈ columns, groupable env.functions column.expr = true)
    (hasked : ¬Group.Asked s.scope ref columns groups) (name : String) (fields : List String)
    (condition : Option Meaning) :
    Outcomes Eq Eq
      ((groupTable name fields (columns.map fun column => evaluate env column.expr) groups >>=
        having condition groups).runFrom s)
      ((groupTable name fields (columns.map fun column => evaluate env column.expr) groups' >>=
        having condition groups').runFrom s) := by
  have htable := (same_groupTable h hc hasked name fields).run s (.refl s)
  refine Outcomes.bind (S := Eq) (P := Eq) (htable ▸ .refl _) fun table _ u _ _ _ hp hu => ?_
  rw [← hp, ← hu]
  exact outcomes_having (h.imp fun _ _ hgroup => hgroup.rows) condition table u

end Clause

/-! ## The query -/

namespace Eval

variable {α β : Type}

theorem Outcomes.returns_iff {act act' : Eval α} {a : α}
    (h : Outcomes Eq Eq (act.runFrom s) (act'.runFrom s)) :
    Returns act s a t ↔ Returns act' s a t := by
  unfold Returns
  generalize act.runFrom s = run at h ⊢
  generalize act'.runFrom s = run' at h ⊢
  cases h with
  | fail => exact ⟨nofun, nofun⟩
  | yield hp hs => rw [hp, hs]

/-- The second evaluation yields the same, except that in one case it does not. -/
def ReturnsUnless (s : State) (p : Prop) (act act' : Eval α) : Prop :=
  ∀ a t, Returns act' s a t ↔ Returns act s a t ∧ ¬p

theorem ReturnsUnless.bind {p : Prop} {act act' : Eval α} (h : ReturnsUnless s p act act')
    (next : α → Eval β) : ReturnsUnless s p (act >>= next) (act' >>= next) := by
  intro b t
  constructor
  · intro hr
    obtain ⟨a, u, ha, hb⟩ := Returns.bind hr
    obtain ⟨ha, hp⟩ := (h a u).mp ha
    exact ⟨(runFrom_bind_ok ha).trans hb, hp⟩
  · rintro ⟨hr, hp⟩
    obtain ⟨a, u, ha, hb⟩ := Returns.bind hr
    exact (runFrom_bind_ok ((h a u).mpr ⟨ha, hp⟩)).trans hb

/-- It is enough to look at what comes behind a part that both have in common. -/
theorem ReturnsUnless.behind {p : Prop} {act : Eval α} {next next' : α → Eval β}
    (h : ∀ a u, Returns act s a u → ReturnsUnless u p (next a) (next' a)) :
    ReturnsUnless s p (act >>= next) (act >>= next') := by
  intro b t
  constructor
  · intro hr
    obtain ⟨a, u, ha, hb⟩ := Returns.bind hr
    obtain ⟨hb, hp⟩ := (h a u ha b t).mp hb
    exact ⟨(runFrom_bind_ok ha).trans hb, hp⟩
  · rintro ⟨hr, hp⟩
    obtain ⟨a, u, ha, hb⟩ := Returns.bind hr
    exact (runFrom_bind_ok ha).trans ((h a u ha b t).mpr ⟨hb, hp⟩)

theorem ReturnsUnless.inChildScope {p : Prop} {act act' : Eval α}
    (h : ReturnsUnless s.opened p act act') :
    ReturnsUnless s p act.inChildScope act'.inChildScope := by
  intro a t
  constructor
  · intro hr
    obtain ⟨u, hu⟩ := Returns.inChildScope hr
    obtain ⟨ha, hp⟩ := (h a u).mp hu
    obtain ⟨-, rfl⟩ := hr.unique (Returns.closed hu)
    exact ⟨Returns.closed ha, hp⟩
  · rintro ⟨hr, hp⟩
    obtain ⟨u, hu⟩ := Returns.inChildScope hr
    obtain ⟨-, rfl⟩ := hr.unique (Returns.closed hu)
    exact Returns.closed ((h a u).mpr ⟨hu, hp⟩)

end Eval

namespace Clause

variable {before after : List Expr}

/-- Grouping by the column once more yields the same, unless the select list asks for it. -/
theorem group_again (hm : .column ref ∈ before ++ after) (pos : Position)
    (columns : List SelectColumn) (condition : Option Meaning) (table : Table) (u : State) :
    ReturnsUnless u
      (∃ groups, Returns (Clause.groups env.functions (before ++ after) columns table) u groups u ∧
        Group.Asked u.scope ref columns groups)
      (group env (before ++ after) columns (columns.map fun column => evaluate env column.expr)
        condition table)
      (group env (before ++ .column (ref.placed pos) :: after) columns
        (columns.map fun column => evaluate env column.expr) condition table) := by
  intro a t
  have hgroups := relates_groups_again hm pos env.functions columns table u.scope u u ⟨rfl, rfl⟩
  generalize hrun : (Clause.groups env.functions (before ++ after) columns table).runFrom u = run
    at hgroups
  generalize hrun' : (Clause.groups env.functions (before ++ .column (ref.placed pos) :: after)
    columns table).runFrom u = run' at hgroups
  cases hgroups with
  | fail =>
    refine ⟨fun hr => ?_, fun hr => ?_⟩
    · obtain ⟨_, _, hg, -⟩ := Returns.bind hr
      cases hrun'.symm.trans hg
    · obtain ⟨_, _, hg, -⟩ := Returns.bind hr.1
      cases hrun.symm.trans hg
  | @yield found found' v _ hdoubled hv =>
    obtain ⟨rfl, -⟩ := hv
    obtain ⟨rfl, hcolumns, -⟩ := groups_values hrun
    unfold group Returns
    rw [runFrom_bind_ok hrun, runFrom_bind_ok hrun']
    by_cases hasked : Group.Asked v.scope ref columns found
    · refine ⟨fun hr => ?_, fun hr => absurd ⟨found, hrun, hasked⟩ hr.2⟩
      obtain ⟨_, _, htable, -⟩ := Returns.bind hr
      exact absurd htable (not_groupTable_of_asked hdoubled hasked _)
    · refine (outcomes_grouped hdoubled hcolumns hasked _ _ condition).returns_iff.symm.trans ?_
      refine (and_iff_left fun hex => ?_).symm
      obtain ⟨other, hother, hasked'⟩ := hex
      obtain ⟨rfl, -⟩ := Returns.unique hother hrun
      exact hasked hasked'

end Clause

namespace Select

/-- In one of the groups that the rows left by `where` fall into, the select list asks for the
column that `ref` means. -/
def AsksFor (env : Environment) (query : Select) (s : State) (ref : ColumnRef) : Prop :=
  ∃ item table u groups, query.source = some item ∧
    Returns ((query.parts env).filtered (evaluateTableRef env false item)) s.opened table u ∧
    Returns (Clause.groups env.functions query.groupBy query.columns table) u groups u ∧
    Group.Asked u.scope ref query.columns groups

theorem asksFor_iff {item : TableRef} (hs : query.source = some item)
    (h : Returns ((query.parts env).filtered (evaluateTableRef env false item)) s.opened table u) :
    query.AsksFor env s ref ↔
      ∃ groups, Returns (Clause.groups env.functions query.groupBy query.columns table) u groups u ∧
        Group.Asked u.scope ref query.columns groups := by
  refine ⟨fun ha => ?_, fun ha => ?_⟩
  · obtain ⟨item', table', u', groups, hs', h', ha⟩ := ha
    cases hs.symm.trans hs'
    obtain ⟨rfl, rfl⟩ := h.unique h'
    exact ⟨groups, ha⟩
  · obtain ⟨groups, ha⟩ := ha
    exact ⟨item, table, u, groups, hs, h, ha⟩

theorem RepeatsKey.isEmpty (h : query.RepeatsKey again ref) :
    query.groupBy.isEmpty = false ∧ again.groupBy.isEmpty = false := by
  obtain ⟨hm, before, after, pos, -, rfl⟩ := h
  exact ⟨List.isEmpty_eq_false_iff_exists_mem.mpr ⟨_, hm⟩, by simp⟩

theorem RepeatsKey.selected {item : TableRef} (h : query.RepeatsKey again ref)
    (hs : query.source = some item) :
    ReturnsUnless s.opened (query.AsksFor env s ref)
      ((query.parts env).selected env query (evaluateTableRef env false item))
      ((again.parts env).selected env again (evaluateTableRef env false item)) := by
  obtain ⟨hempty, hempty'⟩ := h.isEmpty
  obtain ⟨hm, before, after, pos, hkeys, rfl⟩ := h
  refine ReturnsUnless.behind fun table u hfiltered => ?_
  rw [hempty, hempty', propext (asksFor_iff hs hfiltered), hkeys]
  rw [hkeys] at hm
  exact Clause.group_again hm pos query.columns _ table u

/-- Grouping by a column once more changes a query in one way only: it fails where the select list
asks for the column on the key row of a group, and otherwise it yields the very same table. -/
theorem repeated_key_harmless_unless_asked_for (h : query.RepeatsKey again ref) :
    Returns (evaluateSelect env again) s result t ↔
      Returns (evaluateSelect env query) s result t ∧ ¬query.AsksFor env s ref := by
  rw [evaluateSelect_eq, evaluateSelect_eq]
  refine ReturnsUnless.inChildScope ?_ result t
  have hparts : again.star = query.star ∧ again.source = query.source := by
    obtain ⟨-, before, after, pos, -, rfl⟩ := h
    exact ⟨rfl, rfl⟩
  cases hstar : query.star with
  | true =>
    rw [pipeline_star hstar, pipeline_star (hparts.1.trans hstar)]
    exact fun _ _ => ⟨fun hr => hr.throw.elim, fun hr => hr.1.throw.elim⟩
  | false =>
    cases hsource : query.source with
    | none =>
      -- such a query has one row, whatever it is grouped by
      have hnot : ¬query.AsksFor env s ref := by
        rintro ⟨item, table, u, groups, hs, -⟩
        cases hsource.symm.trans hs
      rw [pipeline_single hstar hsource, pipeline_single (hparts.1.trans hstar)
        (hparts.2.trans hsource)]
      obtain ⟨-, before, after, pos, -, rfl⟩ := h
      exact fun _ _ => (and_iff_left hnot).symm
    | some item =>
      have hselected : ReturnsUnless s.opened (query.AsksFor env s ref) _ _ := h.selected hsource
      obtain ⟨hempty, hempty'⟩ := h.isEmpty
      rw [pipeline_from hstar hsource, pipeline_from (hparts.1.trans hstar)
        (hparts.2.trans hsource), hempty, hempty', Bool.and_false, Bool.and_false]
      obtain ⟨-, before, after, pos, -, rfl⟩ := h
      exact ((hselected.bind _).bind _).bind _

theorem texts_counted_by_key_listed_twice :
    ∃ (query again : Select) (ref : ColumnRef) (s t : State) (result : Table),
      query.RepeatsKey again ref ∧
      result.valueRows = [[.number (.ofNat 2)], [.number (.ofNat 1)]] ∧
      Returns (evaluateSelect ⟨.standard, .standard⟩ again) s result t ∧
      (Returns (evaluateSelect ⟨.standard, .standard⟩ again) s result t ↔
        Returns (evaluateSelect ⟨.standard, .standard⟩ query) s result t ∧
          ¬query.AsksFor ⟨.standard, .standard⟩ s ref) := by
  refine ⟨⟨.start, false, [⟨.call .start (.column ⟨.start, none, "count"⟩) [] true, none⟩],
      some ⟨.start, .table "t", none⟩, [], none, [.column ⟨.start, none, "x"⟩], none, [],
      none, none⟩, _, ⟨.start, none, "x"⟩,
    ⟨.ofRoot (Frame.empty.setTable "t" ⟨"t", ["x"], ["p", "q", "p"].map fun text =>
      ⟨[("t", 0)], [⟨"t", "x", "x", 0⟩], [.text text]⟩⟩), none, 0⟩,
    _, _, ⟨List.mem_cons_self, [_], [], .start, rfl, rfl⟩, ?_, rfl, ?_⟩
  · decide
  · exact repeated_key_harmless_unless_asked_for
      ⟨List.mem_cons_self, [_], [], .start, rfl, rfl⟩

/-- The key row has two columns of one name, and the select list asks for it. -/
theorem key_listed_twice_ambiguous :
    ∃ (query again : Select) (ref : ColumnRef) (s : State), query.RepeatsKey again ref ∧
      contentOf ((evaluateSelect ⟨.standard, .standard⟩ query).runFrom s).1 =
        some (["x"], [[.text "a"]]) ∧
      ((evaluateSelect ⟨.standard, .standard⟩ again).runFrom s).1 =
        .error (.ambiguousColumn "t.x") := by
  refine ⟨⟨.start, false, [⟨.column ⟨.start, none, "x"⟩, none⟩],
      some ⟨.start, .table "t", none⟩, [], none, [.column ⟨.start, none, "x"⟩], none, [],
      none, none⟩, _, ⟨.start, none, "x"⟩,
    ⟨.ofRoot (Frame.empty.setTable "t" ⟨"t", ["x"],
      [⟨[("t", 0)], [⟨"t", "x", "x", 0⟩], [.text "a"]⟩]⟩), none, 0⟩,
    ⟨List.mem_cons_self, [_], [], .start, rfl, rfl⟩, ?_, ?_⟩
  · decide
  · decide

end Select

end TableQuery
