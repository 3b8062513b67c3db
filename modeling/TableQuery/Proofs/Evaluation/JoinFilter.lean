import TableQuery.Proofs.Evaluation.Names
import TableQuery.Proofs.Table.Join

/-! # Inner joins as filtered cross joins

The condition of the last inner join may stand in `where` behind a comma join just as well: the same
pairs are asked for in the same frame, and the same ones remain. What differs is the name of the
joined table, which no query writes down. Behind the select list all labels stand for that name. It
goes unnoticed there unless it is also the name of another table. -/

namespace TableQuery

open Eval

variable {env : Environment} {query : Select} {item : TableRef} {before : List Join} {join : Join}
  {condition : Expr} {R : String → String → Prop} {s u : State}

namespace Select

/-- The query has no `where`, and its last join is an inner join. -/
structure EndsInInnerJoin (query : Select) (item : TableRef) (before : List Join) (join : Join)
    (condition : Expr) : Prop where
  source : query.source = some item
  joins : query.joins = before ++ [join]
  kind : join.kind = .inner
  condition : join.condition = some condition
  filter : query.filter = none

/-- The query with a comma join for its last join, the condition in `where`. -/
def withCommaJoin (query : Select) (before : List Join) (join : Join) (condition : Expr) : Select :=
  { query with
    joins := before ++ [{ join with kind := .cross, condition := none }]
    filter := some condition }

/-- The pairs of rows that meet the condition, as a table under the name of a join of this kind. -/
def filteredPairs (env : Environment) (source : Eval Table) (before : List Join) (join : Join)
    (condition : Expr) (kind : JoinKind) : Eval Table := do
  let left ← Pipeline.joined source (before.map (evaluateJoin env))
  let right ← evaluateTableRef env true join.table
  let rows ← keepM (fun row => Clause.condition (evaluate env condition) (.ofRow row))
    (left.crossJoin right (left.joinedName right kind)).rows
  return left.joinedWith right (left.joinedName right kind) rows

theorem joined_append (source : Eval Table) (joins : List (Table → Eval Table))
    (last : Table → Eval Table) :
    Pipeline.joined source (joins ++ [last]) = Pipeline.joined source joins >>= last := by
  simp only [Pipeline.joined, List.foldlM_append, List.foldlM_cons, List.foldlM_nil, bind_pure,
    bind_assoc]

theorem filtered_innerJoin (h : query.EndsInInnerJoin item before join condition)
    (source : Eval Table) :
    (query.parts env).filtered source = filteredPairs env source before join condition .inner := by
  have hlast (left : Table) : evaluateJoin env join left = (do
      let right ← evaluateTableRef env true join.table
      left.joinOn right (left.joinedName right .inner) false fun row =>
        Clause.condition (evaluate env condition) (.ofRow row)) := by
    rw [evaluateJoin_eq, h.kind, h.condition]
    rfl
  have hfilter : (query.parts env).filter = none := by
    rw [parts, h.filter]
    rfl
  rw [Pipeline.filtered, hfilter, parts, h.joins, List.map_append, List.map_singleton,
    joined_append, bind_assoc, filteredPairs]
  simp only [hlast, Table.joinOn_inner, Clause.filter, bind_assoc, pure_bind]

theorem filtered_commaJoin (source : Eval Table) :
    ((query.withCommaJoin before join condition).parts env).filtered source =
      filteredPairs env source before join condition .cross := by
  have hlast (left : Table) :
      evaluateJoin env { join with kind := .cross, condition := none } left = (do
        let right ← evaluateTableRef env true join.table
        return left.crossJoin right (left.joinedName right .cross)) := by
    rw [evaluateJoin_eq]
    rfl
  rw [Pipeline.filtered, parts, withCommaJoin, List.map_append, List.map_singleton,
    joined_append, bind_assoc, filteredPairs]
  simp only [hlast, Clause.filter, Option.map_some, Table.filter, bind_assoc, pure_bind]
  rfl

/-! ## The joined rows -/

/-- Whatever may be called by the internal name of the joined table in the one query may be called
by the one that it has in the other. -/
def Joins (env : Environment) (item : TableRef) (before : List Join) (join : Join) (s : State)
    (R : String → String → Prop) : Prop :=
  ∀ left own u,
    Returns (Pipeline.joined (evaluateTableRef env false item) (before.map (evaluateJoin env)))
      s.opened left u → join.table.label = some own →
    R (left.name ++ "_" ++ own ++ "_" ++ JoinKind.inner.name ++ "_joined")
      (left.name ++ "_" ++ own ++ "_" ++ JoinKind.cross.name ++ "_joined")

/-- The same rows under names that are related. -/
structure SameRows (R : String → String → Prop) (a b : Table) : Prop where
  name : R a.name b.name
  fields : a.fields = b.fields
  rows : a.rows = b.rows

theorem outcomes_filteredPairs (hR : Joins env item before join s R) :
    Outcomes Eq (SameRows R)
      ((filteredPairs env (evaluateTableRef env false item) before join condition
        .inner).runFrom s.opened)
      ((filteredPairs env (evaluateTableRef env false item) before join condition
        .cross).runFrom s.opened) := by
  -- up to the last step the two evaluations are one and the same
  refine (Outcomes.refl _).bind fun left _ u _ hleft _ hl hu => ?_
  subst hl hu
  refine (Outcomes.refl _).bind fun right _ v _ hright _ hr hv => ?_
  subst hr hv
  have hname : join.table.label = some right.name :=
    (evaluateTableRef_namedIn (fun _ => trivial) u.scope.namedIn_all (fun _ _ => trivial)
      hright).2.2 rfl
  refine (Outcomes.refl _).bind fun rows _ w _ _ _ hrows hw => ?_
  subst hrows hw
  exact .yield ⟨hR left right.name u hleft hname, rfl, rfl⟩ rfl

/-! ## The results -/

section

variable {before' : List Join} {filter' : Option Expr} {joins' : List Join}

/-- From the same rows the select list makes results that differ in names only. Its expressions are
evaluated in the same frame on both sides. -/
theorem outcomes_selected (hR : OneToOne R) (hgrouped : ∀ {n n'}, R n n' →
      R (n ++ "_groupby") (n' ++ "_groupby"))
    (hq : ∀ ref : ColumnRef, .column ref ∈ query.groupBy → ∀ q, ref.table = some q → R q q)
    (hh : IgnoresOption R (query.having.map (evaluate env)))
    {source : Eval Table} {query' : Select}
    (h : Outcomes Eq (SameRows R) (((query.parts env).filtered source).runFrom s)
      (((query'.parts env).filtered source).runFrom s))
    (hself : ∀ table u, Returns ((query.parts env).filtered source) s table u →
      u.Renamed Eq u ∧ u.Renamed R u ∧ ∀ row ∈ table.rows, row.Renamed R row)
    (hcolumns : query'.columns = query.columns) (hgroupBy : query'.groupBy = query.groupBy)
    (hhaving : query'.having = query.having) :
    Outcomes (State.Renamed R) (Table.Renamed R)
      (((query.parts env).selected env query source).runFrom s)
      (((query'.parts env).selected env query' source).runFrom s) := by
  have hlist : ∀ meaning ∈ (query.parts env).columns, meaning.Ignores Eq := by
    intro meaning hm
    obtain ⟨column, _, rfl⟩ := List.mem_map.mp hm
    exact (Renaming.same _).ignores column.expr fun _ _ => trivial
  refine h.bind fun a b u _ ha _ hab hu => ?_
  subst hu
  obtain ⟨hsame, hu, hrows⟩ := hself a u ha
  have htable : a.Renamed R b :=
    ⟨hab.name, hab.fields, hab.rows ▸ List.forall₂_same.mpr hrows⟩
  have heq : List.Forall₂ (Row.Renamed Eq) a.rows b.rows :=
    hab.rows ▸ List.forall₂_same.mpr fun row _ => row.renamed_refl
  simp only [parts, hcolumns, hgroupBy, hhaving]
  -- values are made in one state on both sides; from the results on, the two states differ in names
  split
  · refine (Clause.relates_projected hlist _ hab.name heq u u hsame).bind
      fun p p' x y hx hy hp hxy => ?_
    have hx := Moves.returns (restores_projected env query.columns _ _ _) hx
    have hy := Moves.returns (restores_projected env query.columns _ _ _) hy
    exact Relates.bind (Relates.rebind hR hp) (fun _ _ _ => .pure hp) x y
      (hu.of_restored hx hy hxy.labelCounter)
  · refine (Clause.relates_groups hR hq query.columns htable.rows u u hu).bind
      fun groups groups' v v' hv hv' hg _ => ?_
    have heqGroups := (Clause.relates_groups (Renaming.same "").oneToOne (fun _ _ _ _ => rfl)
      query.columns heq u u hsame).returned hv hv'
    obtain rfl : v = u := (Returns.reading hv).2
    obtain rfl : v' = v := (Returns.reading hv').2
    refine (Clause.relates_groupTable hlist _ (hgrouped hab.name) heqGroups v' v' hsame).bind
      fun p p' x y hx hy hp hxy => ?_
    have hx := (groupTable_returns hx).1
    have hy := (groupTable_returns hy).1
    exact Clause.relates_having hR hh hg hp x y (hu.of_restored hx hy hxy.labelCounter)

end

/-- All names that the query can come across where it is called, apart from those that joining and
grouping make, are among the known ones. -/
structure Knows (env : Environment) (query : Select) (s : State) (known : String → Prop) :
    Prop where
  bound : s.scope.NamedIn known
  written : ∀ m ∈ query.mentions, (Vocabulary.mk known known True).Fits m
  generated : ∀ k, known (FreshLabel.numbered env.settings.labelStem k)
  /-- The name of a table that is read from nowhere. -/
  result : known "result"

/-- What stands in the clauses behind the select list, other than sort keys. -/
def lateMentions (query : Select) : List Mention :=
  optionMentions query.having ++ optionMentions query.offset ++ optionMentions query.limit

/-- A name in the label of a table reference. -/
theorem label_of_fits {V : Vocabulary} {ref : TableRef} (h : ∀ m ∈ ref.mentions, V.Fits m) :
    ∀ own, ref.label = some own → V.names own :=
  (h _ ref.mention_mem).2.1

section

variable {known : String → Prop} {fits : Mention → Prop}

theorem Knows.filtered (hk : query.Knows env s known)
    (h : query.EndsInInnerJoin item before join condition) {table : Table}
    (hf : Returns ((query.parts env).filtered (evaluateTableRef env false item)) s.opened table u) :
    u.scope.NamedIn known ∧ u.groupSource = none ∧ ∀ row ∈ table.rows, row.From known := by
  have hfit := partsFit hk.written
  have hopened : s.opened.scope.NamedIn known :=
    List.forall_mem_cons.mpr ⟨Frame.namedIn_empty, hk.bound⟩
  obtain ⟨joined, v, hj, hv, -, hrows⟩ := filtered_returns hf
  obtain ⟨hscope, hjoined⟩ := joined_namedIn hk.generated hopened
    (label_of_fits (hfit.source item h.source))
    (fun join hm => label_of_fits (hfit.joins join hm)) hj
  refine ⟨by rw [hv.scope]; exact hscope, (filtered_joined h.source hf).groupSource, ?_⟩
  exact fun row hrow => hjoined row (hrows row hrow)

/-- If the internal names of the joined table are counterparts in a renaming that leaves alone what
the query knows, the comma join goes unnoticed. -/
theorem content_withCommaJoin (h : query.EndsInInnerJoin item before join condition)
    (hk : query.Knows env s known) (hN : Renaming R env.settings.labelStem fits)
    (hself : ∀ name, known name → R name name) (hR : Joins env item before join s R)
    (hfits : ∀ m ∈ query.lateMentions, fits m) :
    contentOf ((evaluateSelect env query).runFrom s).1 =
      contentOf ((evaluateSelect env (query.withCommaJoin before join condition)).runFrom s).1 := by
  have hone : OneToOne R := hN.oneToOne
  have hfit := partsFit hk.written
  simp only [lateMentions, List.mem_append, or_imp, forall_and] at hfits
  have hlate {expr? : Option Expr} (hm : ∀ m ∈ optionMentions expr?, fits m) :
      IgnoresOption R (expr?.map (evaluate env)) :=
    ignores_option (fun expr _ => hN.ignores expr) hm
  have hfiltered : Outcomes Eq (SameRows R)
      (((query.parts env).filtered (evaluateTableRef env false item)).runFrom s.opened)
      ((((query.withCommaJoin before join condition).parts env).filtered
        (evaluateTableRef env false item)).runFrom s.opened) := by
    rw [filtered_innerJoin h, filtered_commaJoin]
    exact outcomes_filteredPairs hR
  have hkept : ∀ table u,
      Returns ((query.parts env).filtered (evaluateTableRef env false item)) s.opened table u →
        u.Renamed Eq u ∧ u.Renamed R u ∧ ∀ row ∈ table.rows, row.Renamed R row := by
    intro table u hr
    obtain ⟨hu, hnone, hrows⟩ := hk.filtered h hr
    exact ⟨u.scope.namedIn_all.renamed (fun _ _ => rfl) hnone, hu.renamed hself hnone,
      fun row hm => (hrows row hm).renamed hself⟩
  have hselected := outcomes_selected hone hN.grouped
    (fun ref href q hq => hself q (hfit.groupBy ref href q hq)) (hlate hfits.1.1) hfiltered hkept
    rfl rfl rfl
  have hbehind := outcomes_behind hone
    (fun key hkey q hq => hself q (hfit.orderBy key hkey q hq)) (hlate hfits.1.2) (hlate hfits.2)
    hselected rfl rfl rfl
  have hsource : (query.withCommaJoin before join condition).source = some item := h.source
  have hlist : (query.withCommaJoin before join condition).star = query.star := rfl
  have hhaving : ((query.withCommaJoin before join condition).having.isSome &&
      (query.withCommaJoin before join condition).groupBy.isEmpty) =
        (query.having.isSome && query.groupBy.isEmpty) := rfl
  rw [evaluateSelect_eq, evaluateSelect_eq]
  show contentOf ((query.pipeline env).runFrom s.opened).1 =
    contentOf (((query.withCommaJoin before join condition).pipeline env).runFrom s.opened).1
  cases hstar : query.star with
  | true =>
    rw [pipeline_star hstar, pipeline_star (hlist.trans hstar)]
  | false =>
    rw [pipeline_from hstar h.source, pipeline_from (hlist.trans hstar) hsource, hhaving]
    split
    · rfl
    · exact (hbehind.both.mono fun _ _ hab => hab.content).contentOf

end

end Select

/-! ## Names made of names -/

/-- The names that grouping tables with these names makes, and joining them to tables with these
labels. -/
inductive Derived (labels base : String → Prop) : String → Prop where
  | base {n : String} : base n → Derived labels base n
  | grouped {n : String} : Derived labels base n → Derived labels base (n ++ "_groupby")
  | joined {n l : String} (kind : JoinKind) : labels l → Derived labels base n →
      Derived labels base (n ++ "_" ++ l ++ "_" ++ kind.name ++ "_joined")

/-- Known names stay, one internal name becomes another, and so it is inside the names that grouping
and joining make of them. -/
inductive Swaps (labels known : String → Prop) (old new : String) : String → String → Prop where
  | known {n : String} : known n → Swaps labels known old new n n
  | internal : Swaps labels known old new old new
  | grouped {n n' : String} : Swaps labels known old new n n' →
      Swaps labels known old new (n ++ "_groupby") (n' ++ "_groupby")
  | joined {n n' l : String} (kind : JoinKind) : labels l → Swaps labels known old new n n' →
      Swaps labels known old new (n ++ "_" ++ l ++ "_" ++ kind.name ++ "_joined")
        (n' ++ "_" ++ l ++ "_" ++ kind.name ++ "_joined")

/-- No name that is made of known ones is made of the internal name as well. -/
def Apart (labels known : String → Prop) (internal : String) : Prop :=
  ∀ name, Derived labels known name → ¬Derived labels (· = internal) name

section

variable {labels known : String → Prop} {old new n n' : String}

/-- A name is made of known names, or it begins with the internal name; then its counterpart begins
with the other one and goes on alike. -/
theorem Swaps.known_or_internal (h : Swaps labels known old new n n') :
    (n = n' ∧ Derived labels known n) ∨
      (Derived labels (· = old) n ∧ Derived labels (· = new) n' ∧
        ∃ ending, n = old ++ ending ∧ n' = new ++ ending) := by
  induction h with
  | known h => exact .inl ⟨rfl, .base h⟩
  | internal => exact .inr ⟨.base rfl, .base rfl, "", by simp, by simp⟩
  | grouped _ ih =>
    obtain ⟨rfl, hd⟩ | ⟨ho, hn, ending, rfl, rfl⟩ := ih
    · exact .inl ⟨rfl, hd.grouped⟩
    · exact .inr ⟨ho.grouped, hn.grouped, ending ++ "_groupby", by rw [String.append_assoc],
        by rw [String.append_assoc]⟩
  | @joined _ _ l kind hl _ ih =>
    obtain ⟨rfl, hd⟩ | ⟨ho, hn, ending, rfl, rfl⟩ := ih
    · exact .inl ⟨rfl, hd.joined kind hl⟩
    · exact .inr ⟨ho.joined kind hl, hn.joined kind hl,
        ending ++ "_" ++ l ++ "_" ++ kind.name ++ "_joined", by simp only [String.append_assoc],
        by simp only [String.append_assoc]⟩

theorem Swaps.oneToOne (ho : Apart labels known old) (hn : Apart labels known new) :
    OneToOne (Swaps labels known old new) := by
  intro a a' b b' ha hb
  -- a name made of known ones equals none that begins with the internal name, on either side
  obtain ⟨rfl, hka⟩ | ⟨hoa, hna, x, rfl, rfl⟩ := ha.known_or_internal <;>
    obtain ⟨rfl, hkb⟩ | ⟨hob, hnb, y, rfl, rfl⟩ := hb.known_or_internal
  · exact Iff.rfl
  · exact ⟨fun he => absurd (he ▸ hob) (ho _ hka), fun he => absurd (he ▸ hnb) (hn _ hka)⟩
  · exact ⟨fun he => absurd (he ▸ hoa) (ho _ hkb), fun he => absurd (he ▸ hna) (hn _ hkb)⟩
  · rw [String.append_right_inj, String.append_right_inj]

end

namespace Select

/-- A label that a clause behind the select list gives. Sort keys give none. -/
def LateLabel (query : Select) (label : String) : Prop :=
  ∃ source, .item source (some label) ∈ query.lateMentions

/-- What stands behind the select list writes known names down. -/
def LateFits (query : Select) (known : String → Prop) (m : Mention) : Prop :=
  (Vocabulary.mk known known True).Fits m ∧
    ∀ source label, m = .item source (some label) → query.LateLabel label

/-- The internal names of the joined table, as an inner join and as a cross join, are no names that
the query can come across anyway, nor are the names that can be made of them behind the select
list. -/
def NamesApart (env : Environment) (query : Select) (item : TableRef) (before : List Join)
    (join : Join) (s : State) (known : String → Prop) : Prop :=
  ∀ left own u,
    Returns (Pipeline.joined (evaluateTableRef env false item) (before.map (evaluateJoin env)))
      s.opened left u → join.table.label = some own →
    ∀ kind ∈ [JoinKind.inner, JoinKind.cross], Apart query.LateLabel known
      (left.name ++ "_" ++ own ++ "_" ++ kind.name ++ "_joined")

variable {known : String → Prop} {old new : String}

theorem Knows.renaming (hk : query.Knows env s known) (ho : Apart query.LateLabel known old)
    (hn : Apart query.LateLabel known new) :
    Renaming (Swaps query.LateLabel known old new) env.settings.labelStem
      (query.LateFits known) where
  oneToOne := Swaps.oneToOne ho hn
  qualifier h hq := .known (h.1 _ hq)
  table h := .known (h.1.1 _ rfl)
  label h := .known (h.1.2.1 _ rfl)
  generated k := .known (hk.generated k)
  result := .known hk.result
  grouped h := .grouped h
  joined kind h hn := .joined kind (h.2 _ _ rfl) hn

theorem Knows.lateFits (hk : query.Knows env s known) :
    ∀ m ∈ query.lateMentions, query.LateFits known m := by
  have hfit := partsFit hk.written
  intro m hm
  refine ⟨?_, fun source label he => ⟨source, he ▸ hm⟩⟩
  simp only [lateMentions, List.mem_append] at hm
  rcases hm with (hm | hm) | hm
  · exact hfit.having m hm
  · exact hfit.offset m hm
  · exact hfit.limit m hm

/-- An inner join is a comma join filtered by `where`: as long as the internal names of the joined
table are nothing else's, the query succeeds with its condition in the one place if it does with it
in the other, and then with the same fields and the same values in the same order. -/
theorem inner_join_as_filter (h : query.EndsInInnerJoin item before join condition)
    (hk : query.Knows env s known) (ha : query.NamesApart env item before join s known) :
    contentOf ((evaluateSelect env query).runFrom s).1 =
      contentOf ((evaluateSelect env (query.withCommaJoin before join condition)).runFrom s).1 := by
  by_cases hjoin : ∃ left own u,
      Returns (Pipeline.joined (evaluateTableRef env false item) (before.map (evaluateJoin env)))
        s.opened left u ∧ join.table.label = some own
  · obtain ⟨left, own, u, hleft, hown⟩ := hjoin
    have hapart := ha left own u hleft hown
    have hN := hk.renaming (hapart .inner (by simp)) (hapart .cross (by simp))
    refine content_withCommaJoin h hk hN (fun _ => .known)
      (fun left' own' u' hleft' hown' => ?_) hk.lateFits
    obtain ⟨rfl, rfl⟩ := Returns.unique hleft hleft'
    obtain rfl := Option.some.inj (hown.symm.trans hown')
    exact .internal
  · -- without an internal name there is nothing to rename
    exact content_withCommaJoin h hk (.same _) (fun _ _ => rfl)
      (fun left own u hleft hown => absurd ⟨left, own, u, hleft, hown⟩ hjoin) fun _ _ => trivial

/-- Every internal name of a joined table has a `j` in it. Where the known names have none and no
labels are given behind the select list, no other name has one. -/
theorem namesApart_of_letter (hl : ∀ label, ¬query.LateLabel label)
    (hk : ∀ name, known name → 'j' ∉ name.toList) :
    query.NamesApart env item before join s known := by
  intro left own u _ _ kind _ name hd hi
  have hwithout : 'j' ∉ name.toList := by
    clear hi
    induction hd with
    | base h => exact hk _ h
    | grouped _ ih => simpa using ih
    | joined _ h => exact absurd h (hl _)
  have hwith : 'j' ∈ name.toList := by
    clear hd hwithout
    induction hi with
    | base h => simp [h]
    | grouped _ ih => simp [ih]
    | joined => simp
  exact hwithout hwith

/-- Equal texts are joined, in an engine whose tables have no `j` in their names. -/
theorem equal_texts_joined_or_filtered :
    ∃ (query : Select) (item : TableRef) (before : List Join) (join : Join) (condition : Expr)
      (s : State) (known : String → Prop),
      query.EndsInInnerJoin item before join condition ∧
      query.Knows ⟨.standard, .standard⟩ s known ∧
      query.NamesApart ⟨.standard, .standard⟩ item before join s known ∧
      contentOf ((evaluateSelect ⟨.standard, .standard⟩ query).runFrom s).1 =
        some (["k"], [[.text "p"]]) ∧
      contentOf ((evaluateSelect ⟨.standard, .standard⟩ query).runFrom s).1 =
        contentOf ((evaluateSelect ⟨.standard, .standard⟩
          (query.withCommaJoin before join condition)).runFrom s).1 := by
  let item : TableRef := ⟨.start, .table "a", some "y"⟩
  let condition : Expr := .binary .start .equal (.column ⟨.start, some "y", "k"⟩)
    (.column ⟨.start, some "b", "v"⟩)
  let join : Join := ⟨.start, .inner, ⟨.start, .table "u", some "b"⟩, some condition⟩
  let query : Select := ⟨.start, false, [⟨.column ⟨.start, some "y", "k"⟩, none⟩], some item,
    [join], none, [], none, [], some (.literal .start (.number (.ofNat 1))), none⟩
  let left : Table := ⟨"a", ["k"], [.text "p", .text "q"].map fun v =>
    ⟨[("a", 0)], Column.ofFields "a" ["k"], [v]⟩⟩
  let right : Table := ⟨"u", ["v"], [⟨[("u", 0)], Column.ofFields "u" ["v"], [.text "p"]⟩]⟩
  let s : State := ⟨.ofRoot ((Frame.empty.setTable "a" left).setTable "u" right), none, 0⟩
  have hends : query.EndsInInnerJoin item [] join condition := ⟨rfl, rfl, rfl, rfl, rfl⟩
  have hroot : (Frame.empty.setTable "a" left |>.setTable "u" right).NamedIn
      fun name => 'j' ∉ name.toList := by
    have hleft : ∀ row ∈ left.rows, ∀ column ∈ row.columns, 'j' ∉ column.table.toList := by decide
    have hright : ∀ row ∈ right.rows, ∀ column ∈ row.columns, 'j' ∉ column.table.toList := by decide
    have ha : left.NamedIn fun name => 'j' ∉ name.toList := ⟨by decide, hleft⟩
    have hu : right.NamedIn fun name => 'j' ∉ name.toList := ⟨by decide, hright⟩
    exact (Frame.namedIn_empty.setTable ha).setTable hu
  have hwritten : ∀ m ∈ query.mentions, Vocabulary.Fits
      ⟨fun name => 'j' ∉ name.toList, fun name => 'j' ∉ name.toList, True⟩ m := by
    have hm : query.mentions = [.column ⟨.start, some "y", "k"⟩, .item (some "a") (some "y"),
      .item (some "u") (some "b"), .column ⟨.start, some "y", "k"⟩,
      .column ⟨.start, some "b", "v"⟩] := rfl
    rw [hm]
    simp [Vocabulary.Fits]
  have hgenerated : ∀ k, 'j' ∉ (FreshLabel.numbered "t" k).toList := by
    intro k h
    rw [FreshLabel.numbered, String.toList_append, Nat.toString_eq_repr, Nat.toList_repr,
      List.mem_append] at h
    have hdigit := Nat.isDigit_of_mem_toDigits (by decide) (by decide) (h.resolve_left (by decide))
    exact absurd hdigit (by decide)
  have hknows : query.Knows ⟨.standard, .standard⟩ s fun name => 'j' ∉ name.toList :=
    ⟨List.forall_mem_cons.mpr ⟨hroot, List.forall_mem_nil _⟩, hwritten,
      hgenerated, by decide⟩
  have hapart : query.NamesApart ⟨.standard, .standard⟩ item [] join s
      fun name => 'j' ∉ name.toList :=
    namesApart_of_letter (fun _ ⟨_, hm⟩ => List.not_mem_nil hm) fun _ h => h
  exact ⟨query, item, [], join, condition, s, _, hends, hknows, hapart, rfl,
    inner_join_as_filter hends hknows hapart⟩

/-- An inner join may be noticed that is written nowhere: `limit` has a join of its own here, whose
table has the same internal name. -/
theorem inner_join_unlike_filter :
    ¬∀ (env : Environment) (query : Select) (item : TableRef) (before : List Join) (join : Join)
      (condition : Expr) (s : State) (written : String → Prop),
      query.EndsInInnerJoin item before join condition →
      (∀ m ∈ query.mentions, (Vocabulary.mk written written True).Fits m) →
      (∀ left own kind, ¬written (left ++ "_" ++ own ++ "_" ++ JoinKind.name kind ++ "_joined")) →
      contentOf ((evaluateSelect env query).runFrom s).1 =
        contentOf ((evaluateSelect env
          (query.withCommaJoin before join condition)).runFrom s).1 := by
  intro h
  let always : Expr := .binary .start .equal (.literal .start (.number (.ofNat 1)))
    (.literal .start (.number (.ofNat 1)))
  let item : TableRef := ⟨.start, .table "a", some "y"⟩
  let join : Join := ⟨.start, .inner, ⟨.start, .table "u", some "b_c"⟩, some always⟩
  let one : Select := ⟨.start, false, [⟨.column ⟨.start, some "z", "k"⟩, none⟩],
    some ⟨.start, .table "a_b", some "z"⟩,
    [⟨.start, .inner, ⟨.start, .table "u", some "c"⟩, some always⟩], none,
    [.column ⟨.start, some "z", "k"⟩],
    some (.binary .start .equal (.column ⟨.start, some "y", "k"⟩)
      (.literal .start (.number (.ofNat 1)))), [], none, none⟩
  let query : Select := ⟨.start, false, [⟨.column ⟨.start, some "y", "k"⟩, none⟩], some item,
    [join], none, [.column ⟨.start, some "y", "k"⟩], none, [], some (.subquery one), none⟩
  let row (name field : String) : Table :=
    ⟨name, [field], [⟨[(name, 0)], Column.ofFields name [field], [.number (.ofNat 1)]⟩]⟩
  let root : Frame :=
    Frame.empty.setTable "a" (row "a" "k") |>.setTable "a_b" (row "a_b" "k")
      |>.setTable "u" (row "u" "v")
  have hmentions : query.mentions = [.column ⟨.start, some "y", "k"⟩, .item (some "a") (some "y"),
    .item (some "u") (some "b_c"), .column ⟨.start, some "y", "k"⟩,
    .column ⟨.start, some "z", "k"⟩, .item (some "a_b") (some "z"), .item (some "u") (some "c"),
    .column ⟨.start, some "z", "k"⟩, .column ⟨.start, some "y", "k"⟩] := rfl
  have hshort : ∀ name ∈ ["a", "a_b", "b_c", "c", "u", "y", "z"], name.length < 7 := by decide
  have hwritten : ∀ m ∈ query.mentions,
      (Vocabulary.mk (String.length · < 7) (String.length · < 7) True).Fits m := by
    rw [hmentions]
    simp [Vocabulary.Fits, hshort]
  have hinternal (left own : String) (kind : JoinKind) :
      ¬(left ++ "_" ++ own ++ "_" ++ kind.name ++ "_joined").length < 7 := by
    simp only [String.length_append, show "_joined".length = 7 from rfl]
    omega
  have hq := h ⟨.standard, .standard⟩ query item [] join always ⟨.ofRoot root, none, 0⟩
    (String.length · < 7) ⟨rfl, rfl, rfl, rfl, rfl⟩ hwritten hinternal
  have hjoin : contentOf ((evaluateSelect ⟨.standard, .standard⟩ query).runFrom
      ⟨.ofRoot root, none, 0⟩).1 = some (["k"], [[.number (.ofNat 1)]]) := by
    rfl
  have hfilter : contentOf ((evaluateSelect ⟨.standard, .standard⟩
      (query.withCommaJoin [] join always)).runFrom ⟨.ofRoot root, none, 0⟩).1 = none := by
    rfl
  rw [hjoin, hfilter] at hq
  cases hq

end Select

end TableQuery
