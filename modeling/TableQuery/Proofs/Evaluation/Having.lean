import TableQuery.Proofs.Evaluation.Grouping
import TableQuery.Proofs.Evaluation.Names

/-! # Having filters as where does

The condition behind `having` may stand in `where` just as well, in a query around the grouped one.
In the one place it is evaluated on the rows of the groups in the frame that these have taken, in
the other in the frame of a derived table with the same rows under a label. Either frame has one
table only, and where a condition has no qualifiers, that is all it looks at. -/

namespace TableQuery

open Eval

variable {env : Environment} {query : Select} {ref : TableRef} {s t u v : State} {a b : Table}

/-! ## Conditions without qualifiers -/

/-- The node asks for nothing but a row of the innermost frame: it is no query, no aggregate and no
column with a qualifier. -/
def Expr.OnRow (functions : Registry) : Expr → Prop
  | .column ref => ref.table = none
  | .call _ callee _ _ =>
    ∀ name, callee.calleeName? = some name → functions.isAggregate name = false
  | .existence .. | .subquery _ => False
  | _ => True

/-- Each of the innermost frames has one table only. -/
structure State.Sole (a b : Table) (s t : State) : Prop where
  left : s.scope.innermost.allTables = [a]
  right : t.scope.innermost.allTables = [b]

/-- The contexts have rows that differ in names only, whatever groups there are. -/
def Context.RowRenamed (R : String → String → Prop) (context context' : Context) : Prop :=
  Option.Rel (Row.Renamed R) context.row context'.row

theorem Scope.tableOf_unqualified {ref : ColumnRef} (h : ref.table = none) (scope : Scope) :
    scope.tableOf ref = scope.owner ref := by
  rw [tableOf, h]

section

variable {R : String → String → Prop} (env) (hR : OneToOne R) (hab : a.Renamed R b)
include hR hab

theorem leaves_sole : Expr.Leaves env (State.Sole a b) (Context.RowRenamed R)
    (Expr.Throughout (Expr.OnRow env.functions)) fun _ => True where
  operands hf hp := hf.operand hp
  column {ref} hf := by
    have hnone : ref.table = none := hf.here
    refine Meaning.respects_column (fun _ _ hc => hc) fun s t row row' hs hrow => ?_
    refine Scope.both_resolve hR ?_ hrow
    rw [Scope.tableOf_unqualified hnone, Scope.tableOf_unqualified hnone]
    refine Scope.both_owner ?_ ref
    rw [hs.left, hs.right]
    exact .cons hab .nil
  aggregate hf hname hagg _ := by
    cases hagg.symm.trans (hf.here _ hname)
  query {expr _} hf hq _ := by
    have hhere := hf.here
    cases expr with
    | existence | subquery => exact hhere.elim
    | _ => cases hq

theorem respects_sole {condition : Expr} (hc : condition.Throughout (Expr.OnRow env.functions)) :
    (evaluate env condition).Respects (State.Sole a b) (Context.RowRenamed R) :=
  ((leaves_sole env hR hab).steps fun _ _ => trivial).expr condition hc

end

/-! ## Tables of one content -/

/-- Uniform tables that look the same from outside differ in their names only. -/
theorem Table.Uniform.renamed_of_content {R : String → String → Prop} (ha : a.Uniform)
    (hb : b.Uniform) (h : a.content = b.content) (hn : R a.name b.name) : a.Renamed R b where
  name := hn
  fields := congrArg Prod.fst h
  rows := by
    have hfields : a.fields = b.fields := congrArg Prod.fst h
    obtain ⟨hlength, hvalues⟩ := List.forall₂_iff_get.mp (forall₂_valueRows (congrArg Prod.snd h))
    refine List.forall₂_iff_get.mpr ⟨hlength, fun i hi hi' => ⟨?_, hvalues i hi hi'⟩⟩
    rw [(ha _ (List.get_mem ..)).1, (hb _ (List.get_mem ..)).1, hfields]
    exact Column.renamed_ofFields hn b.fields

theorem Table.content_renamed (table : Table) (name : String) :
    (table.renamed name).content = table.content := by
  simp [content, valueRows, renamed, Row.retag]

/-- The names of two tables, each the counterpart of the other. -/
theorem oneToOne_pair (n n' : String) : OneToOne fun m m' => m = n ∧ m' = n' := by
  rintro _ _ _ _ ⟨rfl, rfl⟩ ⟨rfl, rfl⟩
  simp

/-! ## Results picked out -/

namespace Scope

variable {scope : Scope} {row : Row} {col : ColumnRef}

/-- Where fields are distinct, a reference to a table finds each on the rows. -/
theorem resolve_found (hcol : scope.tableOf col = .ok a.name) (hn : a.fields.Nodup)
    (hrow : row.columns = Column.ofFields a.name a.fields) {i : Nat} (hi : i < a.fields.length)
    (hname : col.name = a.fields[i]) {v : Value} (hv : row.values[i]? = some v) :
    (·.2) <$> scope.resolve col row = .ok v := by
  have hcolumn : row.column col.name a.name = .ok (some ⟨a.name, a.fields[i], a.fields[i], i⟩) := by
    rw [hname]
    exact Row.column_of_nodup hrow hn hi
  have hr : scope.resolve col row = .ok (⟨a.name, a.fields[i], a.fields[i], i⟩, v) :=
    resolve_eq_ok.mpr ⟨hcol, hcolumn, hv⟩
  rw [hr]
  rfl

/-- A name without qualifier means the only table, if that has the field. -/
theorem tableOf_sole (hs : scope.innermost.allTables = [a]) (hq : col.table = none)
    (hname : col.name ∈ a.fields) : scope.tableOf col = .ok a.name := by
  have hfield : a.hasField col.name = true := List.contains_iff_mem.mpr hname
  have hfilter : [a].filter (·.hasField col.name) = [a] := by simp [hfield]
  rw [tableOf_unqualified hq]
  unfold owner
  rw [hs, hfilter]

end Scope

namespace Clause

section

variable {refs : List ColumnRef} {rows : List Row} {row : Row} (env) (hn : a.fields.Nodup)
  (hrefs : refs.map (·.name) = a.fields) (hcols : ∀ col ∈ refs, s.scope.tableOf col = .ok a.name)
include hn hrefs hcols

theorem rowValues_found (hrow : row.columns = Column.ofFields a.name a.fields)
    (hlength : row.values.length = a.fields.length) :
    Returns (rowValues (refs.map fun col => evaluate env (.column col)) (.ofRow row)) s row.values
      s := by
  refine Returns.mapM_of_forall₂ (List.forall₂_map_left_iff.mpr ?_)
  refine List.forall₂_iff_get.mpr ⟨?_, fun i hi hi' => ?_⟩
  · rw [hlength, ← hrefs, List.length_map]
  · have hname : (refs.get ⟨i, hi⟩).name = a.fields[i] := by simp [← hrefs]
    have hv : row.values[i]? = some (row.values.get ⟨i, hi'⟩) := List.getElem?_eq_getElem hi'
    simp only [evaluate]
    exact Prod.ext (Scope.resolve_found (hcols _ (List.get_mem ..)) hn hrow _ hname hv) rfl

/-- The fields of a table make its rows again, or those of them that are left. -/
theorem project_found (ha : a.Uniform) (hrows : ∀ row ∈ rows, row ∈ a.rows) :
    ∃ result t,
      Returns (project a.fields (refs.map fun col => evaluate env (.column col)) (a.withRows rows))
        s result t ∧ result.content = (a.withRows rows).content := by
  let made (row : Row) : Row := ⟨[(a.name, 0)], Column.ofFields a.name a.fields, row.values⟩
  have hproject : Returns (Table.project a.name a.fields rows fun row =>
      rowValues (refs.map fun col => evaluate env (.column col)) (.ofRow row)) s
      ⟨a.name, a.fields, rows.map made⟩ s := by
    refine (runFrom_bind_ok (a := rows.map made) (t := s) (Returns.mapM_of_forall₂ ?_)).trans rfl
    refine List.forall₂_map_right_iff.mpr (List.forall₂_same.mpr fun row hrow => ?_)
    obtain ⟨hcolumns, hlength⟩ := ha row (hrows row hrow)
    have hrow : Row.ofValues a.name a.fields row.values = .ok (made row) := by
      unfold Row.ofValues Row.ofColumns
      rw [if_pos (by rw [Column.length_ofFields, hlength])]
    refine (runFrom_bind_ok (rowValues_found env hn hrefs hcols hcolumns hlength)).trans ?_
    rw [hrow]
    rfl
  refine ⟨⟨a.name, a.fields, rows.map made⟩, _, (runFrom_bind_ok hproject).trans rfl,
    Prod.ext rfl ?_⟩
  show (rows.map made).map (·.values) = rows.map (·.values)
  rw [List.map_map]
  rfl

end

/-- The fields of the only table need no qualifier. -/
theorem project_fields {refs : List ColumnRef} {rows : List Row} (env)
    (hs : s.scope.innermost.allTables = [a]) (hn : a.fields.Nodup)
    (hrefs : refs.map (·.name) = a.fields) (hq : ∀ col ∈ refs, col.table = none) (ha : a.Uniform)
    (hrows : ∀ row ∈ rows, row ∈ a.rows) :
    ∃ result t,
      Returns (project a.fields (refs.map fun col => evaluate env (.column col)) (a.withRows rows))
        s result t ∧ result.content = (a.withRows rows).content := by
  refine project_found env hn hrefs (fun col hcol => ?_) ha hrows
  exact Scope.tableOf_sole hs (hq col hcol) (hrefs ▸ List.mem_map_of_mem hcol)

end Clause

/-! ## Grouped queries -/

namespace Clause

variable {columns : List SelectColumn} {groups : List Group} {name : String}

theorem offset_none : offset none = pure := rfl

theorem limit_none : limit none = pure := rfl

theorem filter_some (meaning : Meaning) (table : Table) :
    filter (some meaning) table =
      (keepM (fun row => condition meaning (.ofRow row)) table.rows >>= fun rows =>
        pure (table.withRows rows)) := rfl

theorem having_some (meaning : Meaning) (groups : List Group) (table : Table) :
    having (some meaning) groups table =
      ((keepM (fun pair : Row × Group => condition meaning (.ofGroup pair.1 pair.2.rows))
        (table.rows.zip groups)).overProjection table >>= fun kept =>
          onScope (fun scope => scope.rebind (table.withRows (kept.map (·.1)))) >>= fun _ =>
            pure (table.withRows (kept.map (·.1)))) := rfl

theorem groupTable_uniform (h : Returns (groupTable name (outputNames columns)
      (columns.map fun column => evaluate env column.expr) groups) s a t) :
    a.fields = outputNames columns ∧ a.Uniform ∧ groups.length = a.rows.length := by
  obtain ⟨-, hfields, hall⟩ := groupTable_values h
  refine ⟨hfields, fun row hrow => ?_, hall.length_eq⟩
  obtain ⟨i, hi, rfl⟩ := List.getElem_of_mem hrow
  obtain ⟨hcolumns, hvalues⟩ := (List.forall₂_iff_get.mp hall).2 i (hall.length_eq ▸ hi) hi
  refine ⟨hcolumns, ?_⟩
  rw [hfields, outputNames, List.length_mapIdx]
  exact hvalues.length_eq.symm

end Clause

namespace Select

/-- The groups of a query and the table that the select list makes of them. -/
def listed (env : Environment) (query : Select) (source : Eval Table) :
    Eval (List Group × Table) := do
  let table ← (query.parts env).filtered source
  let groups ← Clause.groups env.functions query.groupBy query.columns table
  let projected ← Clause.groupTable (Clause.groupedName table) (Clause.outputNames query.columns)
    (query.parts env).columns groups
  return (groups, projected)

theorem listed_returns {source : Eval Table} {p : List Group × Table}
    (h : Returns (query.listed env source) s p t) :
    p.2.fields = Clause.outputNames query.columns ∧ p.2.Uniform ∧ p.1.length = p.2.rows.length := by
  obtain ⟨table, u, -, h⟩ := Returns.bind h
  obtain ⟨groups, v, -, h⟩ := Returns.bind h
  obtain ⟨projected, w, hprojected, h⟩ := Returns.bind h
  obtain ⟨rfl, -⟩ := Returns.pure h
  exact Clause.groupTable_uniform hprojected

theorem OnlyGroups.having_none (h : query.OnlyGroups ref) :
    { query with having := none } = query := by
  obtain ⟨-, -, hnone, -, -, -⟩ := h
  cases query
  cases hnone
  rfl

/-- Behind the select list of a query that groups and may have `having`, nothing else happens. -/
theorem OnlyGroups.pipeline (h : query.OnlyGroups ref) (hstar : query.star = false)
    (condition : Option Expr) :
    Select.pipeline env { query with having := condition } =
      (query.listed env (evaluateTableRef env false ref) >>= fun p =>
        Clause.having (condition.map (evaluate env)) p.1 p.2) := by
  have hkeys : query.groupBy.isEmpty = false := by simpa using h.groupBy
  have hlist : ({ query with having := condition } : Select).star = false := hstar
  have hsource : ({ query with having := condition } : Select).source = some ref := h.source
  rw [pipeline_from hlist hsource]
  simp only [hkeys, Bool.and_false, Bool.false_eq_true, if_false, Pipeline.skipped,
    Pipeline.ordered, Pipeline.selected, h.orderBy, List.isEmpty_nil, if_true, parts, h.limit,
    h.offset, Option.map_none, Clause.limit_none, Clause.offset_none, Clause.group, listed,
    bind_assoc, pure_bind, bind_pure]
  rfl

/-- Columns of the rows that a reference stands for, or of those that meet a condition. -/
def listing (pos : Position) (ref : TableRef) (refs : List ColumnRef) (filter : Option Expr) :
    Select :=
  { pos, star := false, columns := refs.map fun col => ⟨.column col, none⟩
    source := some ref, joins := [], filter, groupBy := [], having := none, orderBy := []
    limit := none, offset := none }

/-- Columns of the results of a query for which a condition holds. -/
def within (query : Select) (pos refPos : Position) (label : String) (refs : List ColumnRef)
    (condition : Expr) : Select :=
  { pos, star := false, columns := refs.map fun col => ⟨.column col, none⟩
    source := some ⟨refPos, .subquery query, some label⟩, joins := [], filter := some condition
    groupBy := [], having := none, orderBy := [], limit := none, offset := none }

variable {pos refPos : Position} {label : String} {refs : List ColumnRef} {condition : Expr}

theorem pipeline_listing (filter : Option Expr) :
    (listing pos ref refs filter).pipeline env =
      (evaluateTableRef env false ref >>= fun table =>
        Clause.filter (filter.map (evaluate env)) table >>=
          Clause.project (refs.map (·.name)) (refs.map fun col => evaluate env (.column col))) := by
  have hnames : Clause.outputNames (refs.map fun col => ⟨.column col, none⟩) =
      refs.map (·.name) :=
    List.ext_getElem (by simp [Clause.outputNames]) fun i _ _ => by
      simp [Clause.outputNames, Clause.outputName]
  have hlist : (listing pos ref refs filter).star = false := rfl
  rw [pipeline_from hlist rfl]
  simp only [listing, Pipeline.skipped, Pipeline.ordered, Pipeline.selected, Pipeline.filtered,
    Pipeline.joined, parts, hnames, Option.isSome_none, Bool.false_and, Bool.false_eq_true,
    if_false, List.isEmpty_nil, if_true, Clause.offset_none, Clause.limit_none, List.map_nil,
    List.map_map, List.foldlM_nil, Option.map_none, bind_assoc, bind_pure]
  rfl

theorem pipeline_within :
    (query.within pos refPos label refs condition).pipeline env =
      (evaluateTableRef env false ⟨refPos, .subquery query, some label⟩ >>= fun table =>
        Clause.filter (some (evaluate env condition)) table >>=
          Clause.project (refs.map (·.name)) (refs.map fun col => evaluate env (.column col))) :=
  pipeline_listing (some condition)

/-! ## Inside and outside -/

/-- A query starts in an empty frame, so no table is bound there under the label. -/
theorem runFrom_derived (env : Environment) (s : State) :
    (evaluateTableRef env false ⟨refPos, .subquery query, some label⟩).runFrom s.opened =
      (evaluateSelect env query >>= fun table =>
        Clause.bindTable env (some label) (table.renamed label)).runFrom s.opened := by
  rw [evaluateTableRef_eq]
  simp only [TableRef.rows, Clause.derivedTable, bind_assoc, pure_bind]
  rfl

/-- A label that no frame has is free for a table. -/
theorem bindTable_free (env : Environment) (table : Table) (hv : v.scope = s.opened.scope)
    (hl : s.scope.tableName? label = none) :
    Returns (Clause.bindTable env (some label) table) v table
      { v with scope := v.scope.bind table label } := by
  have hfree : ¬(v.scope.tableName? label).isSome := by
    rw [hv]
    show ¬(s.scope.tableName? label).isSome
    simp [hl]
  exact (Clause.bindTable_some env table v label).trans (if_neg hfree)

/-- One empty frame more around a query makes no difference. -/
theorem opened_renamed (s : State) : s.opened.Renamed Eq s.opened.opened := by
  have hself : FramesRenamed Eq s.scope.frames s.scope.frames :=
    .self (fun _ (_ : True) => rfl) s.scope.namedIn_all
  exact ⟨Frame.renamed_empty, hself.padded, .none, rfl⟩

section

variable (h : query.OnlyGroups ref)
include h

/-- The groups are the same ones in a query by itself and inside another query, where there is one
empty frame more. -/
theorem OnlyGroups.outcomes (hstar : query.star = false) (s : State) :
    Outcomes (fun _ _ => True) (fun p table => p.2.content = table.content)
      ((query.listed env (evaluateTableRef env false ref)).runFrom s.opened)
      ((evaluateSelect env query).runFrom s.opened) := by
  have hN := Renaming.same env.settings.labelStem
  have hparts := (steps_renamed hN).parts query
  have hfits : query.PartsFit fun _ => True := partsFit fun _ _ => trivial
  have hlisted : Relates (State.Renamed Eq) (fun p p' => p.2.content = p'.2.content)
      (query.listed env (evaluateTableRef env false ref))
      (query.listed env (evaluateTableRef env false ref)) := by
    refine (relates_filtered hN hparts hfits h.source).bind fun a b hab => ?_
    refine (Clause.relates_groups hN.oneToOne (fun _ _ _ _ => rfl) query.columns hab.rows).bind
      fun groups groups' hg => ?_
    exact (Clause.relates_groupTable (ignores_columns hparts hfits) _ (hN.grouped hab.name) hg).bind
      fun _ _ hp => .pure hp.content
  have hrun : Outcomes (fun _ _ => True) (fun p table => p.2.content = table.content)
      ((query.listed env (evaluateTableRef env false ref)).runFrom s.opened)
      ((Select.pipeline env { query with having := none }).runFrom s.opened.opened) := by
    rw [h.pipeline hstar]
    exact (hlisted _ _ (opened_renamed s)).onward fun p p' u v _ hp _ => ⟨p'.2, _, rfl, hp, trivial⟩
  rw [h.having_none] at hrun
  rw [evaluateSelect_eq]
  exact hrun.leaving fun _ => trivial

theorem OnlyGroups.derived_returns
    (hr : Returns (evaluateTableRef env false ⟨refPos, .subquery query, some label⟩) s.opened b v) :
    b.fields = Clause.outputNames query.columns ∧ b.Uniform ∧
      v.scope.innermost.allTables = [b] := by
  rw [Returns, runFrom_derived] at hr
  obtain ⟨a, u, ha, hb⟩ := Returns.bind hr
  have hscope : u.scope = s.opened.scope :=
    (Moves.returns (evaluateSelect_moves_restored env query) ha).scope
  obtain ⟨_, _, _, _, _, -, -, hlisted⟩ := h.returns ha
  obtain ⟨hfields, huniform, -⟩ := Clause.groupTable_uniform hlisted
  rw [Returns, Clause.bindTable_some] at hb
  split at hb
  · cases hb
  · cases hb
    refine ⟨hfields, huniform.renamed label, ?_⟩
    rw [hscope]
    rfl

theorem OnlyGroups.outcomes_derived (hstar : query.star = false)
    (hl : s.scope.tableName? label = none) :
    Outcomes (fun _ _ => True) (fun p table => p.2.content = table.content)
      ((query.listed env (evaluateTableRef env false ref)).runFrom s.opened)
      ((evaluateTableRef env false ⟨refPos, .subquery query, some label⟩).runFrom s.opened) := by
  rw [runFrom_derived]
  refine (h.outcomes hstar s).onward fun p a u v hv hpa _ => ?_
  have hscope : v.scope = s.opened.scope :=
    (Moves.returns (evaluateSelect_moves_restored env query) hv).scope
  refine ⟨a.renamed label, _, bindTable_free env _ hscope hl, ?_, trivial⟩
  exact hpa.trans (a.content_renamed label).symm

end

/-- The groups that `having` keeps are those whose rows `where` keeps. -/
theorem outcomes_kept {R : String → String → Prop} {groups : List Group} (hR : OneToOne R)
    (hab : a.Renamed R b) (hc : condition.Throughout (Expr.OnRow env.functions))
    (hlength : groups.length = a.rows.length) (hv : v.scope.innermost.allTables = [b]) :
    Outcomes (fun _ t => t.scope.innermost.allTables = [b])
      (List.Forall₂ fun (pair : Row × Group) row => pair.1.Renamed R row)
      (((keepM (fun pair : Row × Group =>
        Clause.condition (evaluate env condition) (.ofGroup pair.1 pair.2.rows))
          (a.rows.zip groups)).overProjection a).runFrom u)
      ((keepM (fun row => Clause.condition (evaluate env condition) (.ofRow row)) b.rows).runFrom
        v) := by
  have hrows : List.Forall₂ (fun (pair : Row × Group) row => pair.1.Renamed R row)
      (a.rows.zip groups) b.rows := by
    have hfst : (a.rows.zip groups).map (·.1) = a.rows :=
      List.map_fst_zip (Nat.le_of_eq hlength.symm)
    exact List.forall₂_map_left_iff.mp (hfst.symm ▸ hab.rows)
  have hkeep := (relator (State.Sole a b)).keepM hrows fun pair row hrow =>
    have hcontext : Context.RowRenamed R (.ofGroup pair.1 pair.2.rows) (.ofRow row) := .some hrow
    (respects_sole env hR hab hc).condition hcontext
  exact (hkeep ⟨u.scope.rebind a, some u.scope.innermost, u.labelCounter⟩ v ⟨rfl, hv⟩).leaving
    fun hs => hs.right

/-- `having` filters groups as `where` filters rows: a query that only groups, with `having` and a
condition that names columns by their names alone, gives the same fields and values, in the same
order, or fails like the query for all columns of its results that has the condition in `where`. -/
theorem having_as_where (h : query.OnlyGroups ref)
    (hc : condition.Throughout (Expr.OnRow env.functions))
    (hn : (Clause.outputNames query.columns).Nodup)
    (hrefs : refs.map (·.name) = Clause.outputNames query.columns)
    (hq : ∀ col ∈ refs, col.table = none) (hl : s.scope.tableName? label = none) :
    contentOf ((evaluateSelect env { query with having := some condition }).runFrom s).1 =
      contentOf ((evaluateSelect env
        (query.within pos refPos label refs condition)).runFrom s).1 := by
  rw [evaluateSelect_eq, evaluateSelect_eq]
  show contentOf ((Select.pipeline env { query with having := condition }).runFrom s.opened).1 =
    contentOf (((query.within pos refPos label refs condition).pipeline env).runFrom s.opened).1
  rw [pipeline_within]
  -- a star fails in the query itself and in the derived table
  by_cases hstar : query.star = true
  · have hlist : ({ query with having := some condition } : Select).star = true := hstar
    rw [pipeline_star hlist, runFrom_bind, runFrom_derived, runFrom_bind, evaluateSelect_eq,
      pipeline_star hstar]
    rfl
  · have hlist : query.star = false := Bool.eq_false_iff.mpr hstar
    rw [h.pipeline hlist]
    refine (Outcomes.both (S := fun _ _ => True) ?_).contentOf
    refine (h.outcomes_derived hlist hl).bind fun p b u v hp hb hpb _ => ?_
    obtain ⟨-, ha, hlength⟩ := listed_returns hp
    obtain ⟨hfields, hb, hv⟩ := h.derived_returns hb
    -- the two tables differ in their names only, and so do the frames that have them alone
    have hab := ha.renamed_of_content (R := fun m m' => m = p.2.name ∧ m' = b.name) hb hpb
      ⟨rfl, rfl⟩
    rw [Option.map_some, Clause.having_some, Clause.filter_some, bind_assoc, hrefs, ← hfields]
    refine (outcomes_kept (oneToOne_pair _ _) hab hc hlength hv).bind
      fun kept rows x y _ hy hkept hs => ?_
    obtain ⟨result, z, hr, hcontent⟩ := Clause.project_fields env hs (hfields ▸ hn)
      (hrefs.trans hfields.symm) hq hb (Returns.keepM hy)
    have hvalues : (kept.map (·.1)).map (·.values) = rows.map (·.values) := by
      rw [List.map_map]
      exact map_eq_map_of_forall₂ (hkept.imp fun _ _ hrow => hrow.values)
    rw [pure_bind, hr]
    exact .yield ((Prod.ext hab.fields hvalues : _ = (b.withRows rows).content).trans hcontent.symm)
      trivial

/-- Texts that occur twice. -/
theorem counts_kept_as_rows :
    ∃ (query : Select) (ref : TableRef) (condition : Expr) (refs : List ColumnRef)
      (label : String) (s : State),
      query.OnlyGroups ref ∧ condition.Throughout (Expr.OnRow Registry.standard) ∧
      (Clause.outputNames query.columns).Nodup ∧
      refs.map (·.name) = Clause.outputNames query.columns ∧
      (∀ col ∈ refs, col.table = none) ∧ s.scope.tableName? label = none ∧
      contentOf ((evaluateSelect ⟨.standard, .standard⟩
          { query with having := some condition }).runFrom s).1 =
        some (["x", "n"], [[.text "p", .number (.ofNat 2)]]) ∧
      contentOf ((evaluateSelect ⟨.standard, .standard⟩
          { query with having := some condition }).runFrom s).1 =
        contentOf ((evaluateSelect ⟨.standard, .standard⟩
          (query.within .start .start label refs condition)).runFrom s).1 := by
  let ref : TableRef := ⟨.start, .table "t", some "a"⟩
  let query : Select := ⟨.start, false, [⟨.column ⟨.start, some "a", "x"⟩, none⟩,
    ⟨.call .start (.column ⟨.start, none, "count"⟩) [] true, some "n"⟩], some ref, [], none,
    [.column ⟨.start, none, "x"⟩], none, [], none, none⟩
  let condition : Expr := .binary .start .equal (.column ⟨.start, none, "n"⟩)
    (.literal .start (.number (.ofNat 2)))
  let s : State := ⟨.ofRoot (Frame.empty.setTable "t" ⟨"t", ["x"], ["p", "q", "p"].map fun text =>
    ⟨[("t", 0)], [⟨"t", "x", "x", 0⟩], [.text text]⟩⟩), none, 0⟩
  have hgroups : query.OnlyGroups ref := ⟨rfl, List.cons_ne_nil _ _, rfl, rfl, rfl, rfl⟩
  have hcondition : condition.Throughout (Expr.OnRow Registry.standard) :=
    .intro trivial (List.forall_mem_cons.mpr ⟨.intro rfl (List.forall_mem_nil _),
      List.forall_mem_singleton.mpr (.intro trivial (List.forall_mem_nil _))⟩)
  refine ⟨query, ref, condition, [⟨.start, none, "x"⟩, ⟨.start, none, "n"⟩], "s", s, hgroups,
    hcondition, by decide, rfl, by decide, by decide, rfl, ?_⟩
  exact having_as_where hgroups hcondition (by decide) rfl (by decide) (by decide)

end Select

end TableQuery
