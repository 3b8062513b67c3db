import TableQuery.Proofs.Evaluation.Renaming

/-! # Queries over renamed tables

Every clause, every expression and every query takes frames and tables that differ in names only to
frames and tables that do. In the end the names are gone: what is left of a result outside are its
fields and its values, and these are the same. -/

namespace TableQuery

open Eval

/-- A renaming that queries do not notice, as far as their mentions are fit for it: the names that
they write down stay, and where a name has a counterpart, the names that grouping and joining make
of the two are counterparts as well. -/
structure Renaming (R : String → String → Prop) (stem : String) (fits : Mention → Prop) : Prop where
  oneToOne : OneToOne R
  qualifier : ∀ {ref : ColumnRef} {q : String}, fits (.column ref) → ref.table = some q → R q q
  table : ∀ {name : String} {label : Option String}, fits (.item (some name) label) → R name name
  label : ∀ {source : Option String} {l : String}, fits (.item source (some l)) → R l l
  generated : ∀ k, R (FreshLabel.numbered stem k) (FreshLabel.numbered stem k)
  /-- The name of a table that is read from nowhere. -/
  result : R "result" "result"
  grouped : ∀ {n n' : String}, R n n' → R (n ++ "_groupby") (n' ++ "_groupby")
  joined : ∀ {source : Option String} {l n n' : String} (kind : JoinKind),
    fits (.item source (some l)) → R n n' →
      R (n ++ "_" ++ l ++ "_" ++ kind.name ++ "_joined")
        (n' ++ "_" ++ l ++ "_" ++ kind.name ++ "_joined")

/-- Names need not change. -/
theorem Renaming.same (stem : String) : Renaming Eq stem fun _ => True where
  oneToOne h h' := by rw [h, h']
  qualifier _ _ := rfl
  table _ := rfl
  label _ := rfl
  generated _ := rfl
  result := rfl
  grouped h := by rw [h]
  joined _ _ h := by rw [h]

namespace Context

variable {R : String → String → Prop} {row row' : Row} {rows rows' : List Row}

theorem renamed_none : Renamed R .none .none := ⟨.none, .none⟩

theorem Renamed.ofRow (h : row.Renamed R row') : Renamed R (.ofRow row) (.ofRow row') :=
  ⟨.some h, .none⟩

theorem Renamed.ofGroup (h : row.Renamed R row') (hs : List.Forall₂ (Row.Renamed R) rows rows') :
    Renamed R (.ofGroup row rows) (.ofGroup row' rows') := ⟨.some h, .some hs⟩

end Context

/-- The meaning does not notice the renaming. -/
abbrev Meaning.Ignores (R : String → String → Prop) (meaning : Meaning) : Prop :=
  meaning.Respects (State.Renamed R) (Context.Renamed R)

variable {R : String → String → Prop} {fits : Mention → Prop} {env : Environment}

/-! ## Brackets -/

namespace Eval

variable {α β : Type} {P : α → β → Prop} {act : Eval α} {act' : Eval β}

/-- The same outcomes, with other states behind them. -/
theorem Outcomes.leaving {S T : State → State → Prop} {run : Except QueryError α × State}
    {run' : Except QueryError β × State} (h : Outcomes S P run run') {u v : State}
    (hs : S run.2 run'.2 → T u v) : Outcomes T P (run.1, u) (run'.1, v) := by
  cases h with
  | fail => exact .fail
  | yield hp h => exact .yield hp (hs h)

theorem Relates.inChildScope (h : Relates (State.Renamed R) P act act')
    (hm : act.Moves State.Enclosed) (hm' : act'.Moves State.Enclosed) :
    Relates (State.Renamed R) P act.inChildScope act'.inChildScope := by
  intro s t hs
  -- the frames of the query are gone when it ends; of the runs inside only the counter remains
  have hrestored := (restores_inChildScope (fun h => h) hm) s
  have hrestored' := (restores_inChildScope (fun h => h) hm') t
  refine (h s.opened t.opened hs.opened).leaving fun hafter => ?_
  exact hs.of_restored hrestored hrestored' hafter.labelCounter

theorem Relates.inGroupSource (h : Relates (State.Renamed R) P act act') :
    Relates (State.Renamed R) P act.inGroupSource act'.inGroupSource := by
  intro s t hs
  obtain ⟨scope, source, n⟩ := s
  obtain ⟨scope', source', n'⟩ := t
  obtain ⟨hi, ho, hg, hn⟩ := hs
  cases hg with
  | none => exact h _ _ ⟨hi, ho, .none, hn⟩
  | @some source source' hg =>
    have hrun := h ⟨scope.replace source, none, n⟩ ⟨scope'.replace source', none, n'⟩
      ⟨hg, ho, .none, hn⟩
    exact hrun.leaving fun hafter => ⟨hi, hafter.outer, .some hafter.innermost, hafter.labelCounter⟩

theorem Relates.overProjection (hR : OneToOne R) (h : Relates (State.Renamed R) P act act')
    {projected projected' : Table} (hp : projected.Renamed R projected') :
    Relates (State.Renamed R) P (act.overProjection projected)
      (act'.overProjection projected') := by
  intro s t hs
  have hrun := h ⟨s.scope.rebind projected, some s.scope.innermost, s.labelCounter⟩
    ⟨t.scope.rebind projected', some t.scope.innermost, t.labelCounter⟩
    ⟨hs.innermost.rebound hR hp, hs.outer, .some hs.innermost, hs.labelCounter⟩
  exact hrun.leaving fun hafter =>
    ⟨hafter.innermost, hafter.outer, hs.groupSource, hafter.labelCounter⟩

theorem Relates.rebind (hR : OneToOne R) {table table' : Table} (ht : table.Renamed R table') :
    Relates (State.Renamed R) Eq (Eval.onScope fun scope => scope.rebind table)
      (Eval.onScope fun scope => scope.rebind table') :=
  fun _ _ hs => .yield rfl (hs.rebind hR ht)

end Eval

/-! ## Clauses -/

/-- A meaning that need not be there does not notice the renaming if it is. -/
def IgnoresOption (R : String → String → Prop) (meaning? : Option Meaning) : Prop :=
  ∀ meaning, meaning? = some meaning → meaning.Ignores R

namespace Clause

variable {table table' left left' right right' : Table} {meanings : List Meaning}

section

variable (hN : Renaming R env.settings.labelStem fits)
include hN

theorem relates_bindTable {label? : Option String} (hl : ∀ l, label? = some l → R l l)
    (ht : table.Renamed R table') :
    Relates (State.Renamed R) (fun a b => a = table ∧ b = table') (bindTable env label? table)
      (bindTable env label? table') := by
  have hR : OneToOne R := hN.oneToOne
  intro s t hs
  cases label? with
  | some l =>
    rw [bindTable_some, bindTable_some, isSome_eq_of_rel (hs.tableName? hR (hl l rfl))]
    split
    · exact .fail
    · exact .yield ⟨rfl, rfl⟩ (hs.bind hR ht (hl l rfl) hs.labelCounter)
  | none =>
    rw [bindTable_none, bindTable_none, hs.firstFree hR hN.generated]
    exact .yield ⟨rfl, rfl⟩ (hs.bind hR ht (hN.generated _) rfl)

theorem relates_boundTable (joined : Bool) (pos : Position) {name : String} {label : Option String}
    (hf : fits (.item (some name) label)) :
    Relates (State.Renamed R)
      (fun a b => a.Renamed R b ∧
        (joined = true → ∃ l, label = some l ∧ a.name = l ∧ b.name = l))
      (boundTable joined pos name label) (boundTable joined pos name label) := by
  refine .reading fun s t hs => ?_
  have hfound := hs.find? hN.oneToOne (hN.table hf)
  revert hfound
  generalize s.scope.find? name = found
  generalize t.scope.find? name = found'
  intro hfound
  cases hfound with
  | none => exact .error
  | some ht =>
    cases joined with
    | false => exact .ok ⟨ht, fun hj => absurd hj Bool.false_ne_true⟩
    | true =>
      cases label with
      | none => exact .error
      | some l => exact .ok ⟨ht.renamed (hN.label hf), fun _ => ⟨l, rfl, rfl, rfl⟩⟩

theorem relates_derivedTable (pos : Position) {source label : Option String}
    (hf : fits (.item source label)) {query : Eval Table}
    (hq : Relates (State.Renamed R) (Table.Renamed R) query query) :
    Relates (State.Renamed R)
      (fun a b => a.Renamed R b ∧ ∃ l, label = some l ∧ a.name = l ∧ b.name = l)
      (derivedTable pos label query) (derivedTable pos label query) := by
  cases label with
  | none => exact .throw _ _
  | some l =>
    refine Relates.bind (P := Eq) (.reading fun s t hs => ?_) fun _ _ _ => ?_
    · rw [isSome_eq_of_rel (hs.innermost.table? hN.oneToOne (hN.label hf))]
      exact .refl _
    · exact hq.bind fun a b hab => .pure ⟨hab.renamed (hN.label hf), l, rfl, rfl, rfl⟩

/-- The table that a reference stands for; the one of a join is called by its label. -/
theorem relates_tableRef {ref : TableRef} (joined : Bool) (hf : ∀ m ∈ ref.mentions, fits m)
    (hq : ∀ query, ref.source = .subquery query → (∀ m ∈ query.mentions, fits m) →
      Relates (State.Renamed R) (Table.Renamed R) (evaluateSelect env query)
        (evaluateSelect env query)) :
    Relates (State.Renamed R)
      (fun a b => a.Renamed R b ∧
        (joined = true → ∃ l, ref.label = some l ∧ a.name = l ∧ b.name = l))
      (evaluateTableRef env joined ref) (evaluateTableRef env joined ref) := by
  have hitem : fits (.item ref.name? ref.label) := hf _ ref.mention_mem
  have hlabel : ∀ l, ref.label = some l → R l l := by
    intro l hl
    rw [hl] at hitem
    exact hN.label hitem
  have hrows : Relates (State.Renamed R)
      (fun a b => a.Renamed R b ∧
        (joined = true → ∃ l, ref.label = some l ∧ a.name = l ∧ b.name = l))
      (ref.rows env joined) (ref.rows env joined) := by
    obtain ⟨pos, source | query, label⟩ := ref
    · exact relates_boundTable hN joined pos hitem
    · have hinner := hq query rfl fun m hm => hf m (TableRef.mem_mentions_of_subquery rfl hm)
      exact (relates_derivedTable hN pos hitem hinner).mono fun a b hab => ⟨hab.1, fun _ => hab.2⟩
  rw [evaluateTableRef_eq]
  refine hrows.bind fun a b hab => (relates_bindTable hN hlabel hab.1).mono fun c d hcd => ?_
  obtain ⟨rfl, rfl⟩ := hcd
  exact hab

theorem relates_join {ref : TableRef} {right right' : Eval Table} (pos : Position)
    (kind : JoinKind) {on : Option Meaning} (hf : fits (.item ref.name? ref.label))
    (hr : Relates (State.Renamed R)
      (fun a b => a.Renamed R b ∧ (true = true → ∃ l, ref.label = some l ∧ a.name = l ∧ b.name = l))
      right right')
    (ho : IgnoresOption R on) (hl : left.Renamed R left') :
    Relates (State.Renamed R) (Table.Renamed R) (join pos kind right on left)
      (join pos kind right' on left') := by
  unfold join
  split
  · exact .throw _ _
  · refine hr.bind fun a b hab => ?_
    obtain ⟨l, hlabel, ha, hb⟩ := hab.2 rfl
    have hname : R (left.joinedName a kind) (left'.joinedName b kind) := by
      rw [hlabel] at hf
      rw [Table.joinedName, Table.joinedName, ha, hb]
      exact hN.joined kind hf hl.name
    split
    · exact .pure (hl.crossJoin hab.1 hname)
    · cases on with
      | none => exact .throw _ _
      | some meaning =>
        have hrows := Table.Renamed.joinRows (relator (State.Renamed R)) hab.1
          (fun row row' hrow => (ho meaning rfl).condition (Context.Renamed.ofRow hrow))
          (kind == .left) hl.rows
        exact Relates.bind hrows fun _ _ hrows => .pure (hl.joinedWith hab.1 hname hrows)

end

theorem relates_filter {filter : Option Meaning} (hf : IgnoresOption R filter)
    (ht : table.Renamed R table') :
    Relates (State.Renamed R) (Table.Renamed R) (Clause.filter filter table)
      (Clause.filter filter table') := by
  cases filter with
  | none => exact .pure ht
  | some meaning =>
    have hrows := (relator (State.Renamed R)).keepM ht.rows fun row row' hrow =>
      (hf meaning rfl).condition (Context.Renamed.ofRow hrow)
    exact Relates.bind hrows fun _ _ hrows => .pure (ht.withRows hrows)

section

variable (hm : ∀ meaning ∈ meanings, meaning.Ignores R)
include hm

theorem relates_single (fields : List String) (hn : R "result" "result") :
    Relates (State.Renamed R) (Table.Renamed R) (single fields meanings)
      (single fields meanings) := by
  refine (Meaning.Respects.rowValues hm Context.renamed_none).bind fun vs _ hvs => ?_
  subst hvs
  exact Relates.bind (.ofExcept (Row.both_ofValues hn fields vs)) fun row row' hrow =>
    .pure ⟨hn, rfl, .cons hrow .nil⟩

/-- The rows may be renamed in one way and the table of the results in another one. -/
theorem relates_projected {R' : String → String → Prop} (fields : List String) {n n' : String}
    (hn : R' n n') {rows rows' : List Row} (h : List.Forall₂ (Row.Renamed R) rows rows') :
    Relates (State.Renamed R) (Table.Renamed R')
      (Table.project n fields rows fun row => rowValues meanings (.ofRow row))
      (Table.project n' fields rows' fun row => rowValues meanings (.ofRow row)) := by
  refine Relates.bind ((relator (State.Renamed R)).mapM h fun row row' hrow => ?_)
    fun rows rows' hrows => .pure ⟨hn, rfl, hrows⟩
  refine Relates.bind (Meaning.Respects.rowValues hm (Context.Renamed.ofRow hrow))
    fun vs _ hvs => ?_
  subst hvs
  have hmade := Row.both_ofValues hn fields vs
  revert hmade
  generalize Row.ofValues n fields vs = made
  generalize Row.ofValues n' fields vs = made'
  intro hmade
  cases hmade with
  | error => exact .throw _ _
  | ok hrow => exact .pure hrow

theorem relates_project (hR : OneToOne R) (fields : List String) (ht : table.Renamed R table') :
    Relates (State.Renamed R) (Table.Renamed R) (project fields meanings table)
      (project fields meanings table') :=
  (relates_projected hm fields ht.name ht.rows).bind fun _ _ hp =>
    (Relates.rebind hR hp).bind fun _ _ _ => .pure hp

theorem relates_groupTable {R' : String → String → Prop} (fields : List String) {n n' : String}
    (hn : R' n n') {groups groups' : List Group}
    (hg : List.Forall₂ (Group.Renamed R) groups groups') :
    Relates (State.Renamed R) (Table.Renamed R') (groupTable n fields meanings groups)
      (groupTable n' fields meanings groups') := by
  refine Relates.bind ((relator (State.Renamed R)).mapM hg fun group group' hgroup => ?_)
    fun rows rows' hrows => .pure ⟨hn, rfl, hrows⟩
  have hall : List.Forall₂ (fun m m' => m = m' ∧ m ∈ meanings) meanings meanings :=
    List.forall₂_same.mpr fun m hmem => ⟨rfl, hmem⟩
  refine Relates.bind ((relator (State.Renamed R)).mapM (Q := Eq) hall fun m _ hmem => ?_)
    fun vs ws hvs => ?_
  · obtain ⟨rfl, hmem⟩ := hmem
    exact (hm m hmem _ _ (Context.Renamed.ofGroup hgroup.keyRow hgroup.rows)).mapError _ _
  · obtain rfl : vs = ws := List.forall₂_eq_eq_eq ▸ hvs
    exact .ofExcept (Row.both_ofValues hn fields vs)

end

theorem relates_having (hR : OneToOne R) {condition : Option Meaning}
    (hc : IgnoresOption R condition) {groups groups' : List Group}
    (hg : List.Forall₂ (Group.Renamed R) groups groups') (ht : table.Renamed R table') :
    Relates (State.Renamed R) (Table.Renamed R) (having condition groups table)
      (having condition groups' table') := by
  cases condition with
  | none => exact (Relates.rebind hR ht).bind fun _ _ _ => .pure ht
  | some meaning =>
    have hkeep := (relator (State.Renamed R)).keepM (forall₂_zip ht.rows hg) fun pair pair' hpair =>
      (hc meaning rfl).condition (Context.Renamed.ofGroup hpair.1 hpair.2.rows)
    refine Relates.bind (Relates.overProjection hR hkeep ht) fun kept kept' hkept => ?_
    have hrows : List.Forall₂ (Row.Renamed R) (kept.map (·.1)) (kept'.map (·.1)) :=
      List.forall₂_map_left_iff.mpr (List.forall₂_map_right_iff.mpr
        (hkept.imp fun _ _ hpair => hpair.1))
    have hfiltered := ht.withRows hrows
    exact (Relates.rebind hR hfiltered).bind fun _ _ _ => .pure hfiltered

theorem relates_groups (hR : OneToOne R) {functions : Registry} {keys : List Expr}
    (hq : ∀ ref : ColumnRef, .column ref ∈ keys → ∀ q, ref.table = some q → R q q)
    (columns : List SelectColumn) (hrows : List.Forall₂ (Row.Renamed R) table.rows table'.rows) :
    Relates (State.Renamed R) (List.Forall₂ (Group.Renamed R))
      (groups functions keys columns table) (groups functions keys columns table') := by
  refine .reading fun s t hs => ?_
  cases hrefs : groupColumns keys with
  | error e => exact .error
  | ok refs =>
    refine Both.bind (P := fun a b => a = refs ∧ b = refs) (.ok ⟨rfl, rfl⟩) fun a b hab => ?_
    rw [hab.1, hab.2]
    refine Both.bind (.refl (checkGroupable functions columns)) fun _ _ _ =>
      both_groupRows (fun row row' hrow => ?_) hrows
    refine Both.relator.mapM (P := fun ref ref' => ref = ref' ∧ ref ∈ refs)
      (List.forall₂_same.mpr fun ref hmem => ⟨rfl, hmem⟩) fun ref _ hmem => ?_
    obtain ⟨rfl, hmem⟩ := hmem
    exact hs.resolve hR (hq ref (mem_of_groupColumns hrefs hmem)) hrow

theorem relates_order (hR : OneToOne R) {keys : List OrderKey}
    (hq : ∀ key ∈ keys, ∀ q, key.column.table = some q → R q q) (ht : table.Renamed R table') :
    Relates (State.Renamed R) (Table.Renamed R) (order keys table) (order keys table') := by
  unfold order
  split
  · exact .throw _ _
  · refine .reading fun s t hs => ht.sort _ fun row row' hrow => ?_
    refine (Both.relator.mapM (P := fun key key' => key = key' ∧ key ∈ keys) (Q := Eq)
      (List.forall₂_same.mpr fun key hmem => ⟨rfl, hmem⟩) fun key _ hmem => ?_).mono
        fun vs ws hvs => List.forall₂_eq_eq_eq ▸ hvs
    obtain ⟨rfl, hmem⟩ := hmem
    exact (hs.resolve hR (hq key hmem) hrow).map fun _ _ hcell => hcell.2

theorem relates_rowCount {meaning : Meaning} (hm : meaning.Ignores R) (clause : SliceClause) :
    Relates (State.Renamed R) Eq (rowCount clause meaning) (rowCount clause meaning) := by
  refine ((hm _ _ Context.renamed_none).mapError _ _).bind fun v _ hv => ?_
  subst hv
  split
  · exact .pure rfl
  · exact .throw _ _

theorem relates_offset {offset : Option Meaning} (ho : IgnoresOption R offset)
    (ht : table.Renamed R table') :
    Relates (State.Renamed R) (Table.Renamed R) (Clause.offset offset table)
      (Clause.offset offset table') := by
  cases offset with
  | none => exact .pure ht
  | some meaning =>
    refine (relates_rowCount (ho meaning rfl) .offset).bind fun n _ hn => .pure ?_
    subst hn
    exact ht.withRows (List.forall₂_drop n ht.rows)

theorem relates_limit {limit : Option Meaning} (hl : IgnoresOption R limit)
    (ht : table.Renamed R table') :
    Relates (State.Renamed R) (Table.Renamed R) (Clause.limit limit table)
      (Clause.limit limit table') := by
  cases limit with
  | none => exact .pure ht
  | some meaning =>
    refine (relates_rowCount (hl meaning rfl) .limit).bind fun n _ hn => .pure ?_
    subst hn
    exact ht.withRows (List.forall₂_take n ht.rows)

end Clause

/-! ## Expressions -/

theorem Expr.mem_mentions_of_operand {expr part : Expr} (hp : part ∈ expr.operands) {m : Mention}
    (hm : m ∈ part.mentions) : m ∈ expr.mentions := by
  cases expr with
  | literal | column | existence | subquery => exact absurd hp List.not_mem_nil
  | _ =>
    simp only [operands, mentions, List.mem_append, mem_eachMentions, mem_optionMentions] at hp ⊢
    grind

theorem Expr.mem_mentions_of_query {expr : Expr} {query : Select} (hq : expr.query? = some query)
    {m : Mention} (hm : m ∈ query.mentions) : m ∈ expr.mentions := by
  cases expr with
  | existence | subquery =>
    cases hq
    exact hm
  | _ => cases hq

/-- A reference has one meaning on rows that differ in names only, if it is understood alike. -/
theorem Meaning.respects_column {S : State → State → Prop} {C : Context → Context → Prop}
    {ref : ColumnRef} (hrow : ∀ c c', C c c' → Option.Rel (Row.Renamed R) c.row c'.row)
    (h : ∀ s t row row', S s t → row.Renamed R row' →
      Both (Column.RenamedCell R) (s.scope.resolve ref row) (t.scope.resolve ref row')) :
    (evaluate env (.column ref)).Respects S C := by
  intro context context' hc
  have hrow := hrow context context' hc
  simp only [evaluate]
  revert hrow
  generalize context.row = row?
  generalize context'.row = row?'
  intro hrow
  cases hrow with
  | none => exact .throw _ _
  | some hrow => exact .reading fun s t hs => (h s t _ _ hs hrow).map fun _ _ hcell => hcell.2

section

variable (hN : Renaming R env.settings.labelStem fits)
include hN

theorem ignores_column {ref : ColumnRef} (hf : fits (.column ref)) :
    (evaluate env (.column ref)).Ignores R :=
  Meaning.respects_column (fun _ _ hc => hc.row) fun _ _ _ _ hs hrow =>
    hs.resolve hN.oneToOne (fun _ hq => hN.qualifier hf hq) hrow

omit hN in
theorem ignores_aggregate {name : String} {args : List Expr} {star : Bool}
    (ha : ∀ arg ∈ args, (evaluate env arg).Ignores R) :
    (Meaning.aggregate env name (args.map (evaluate env)) star).Ignores R := by
  intro context context' hc
  unfold Meaning.aggregate
  have hgroup := hc.group
  revert hgroup
  generalize context.group = rows?
  generalize context'.group = rows?'
  intro hgroup
  cases hgroup with
  | none => exact .throw _ _
  | some hrows =>
    refine Relates.bind (.ofExcept (.refl _)) fun function _ hfunction => ?_
    subst hfunction
    rw [hrows.length_eq]
    split
    · exact .ofExcept (.refl _)
    · next arg harg =>
      have hmem : arg ∈ args.map (evaluate env) := by
        split at harg
        · cases harg
        · exact List.mem_of_mem_head? harg
      obtain ⟨expr, hexpr, rfl⟩ := List.mem_map.mp hmem
      have hvalues := (relator (State.Renamed R)).mapM (Q := Eq) hrows fun row row' hrow =>
        ha expr hexpr _ _ (Context.Renamed.ofRow hrow)
      refine (Relates.inGroupSource hvalues).bind fun vs ws hvs => ?_
      obtain rfl : vs = ws := List.forall₂_eq_eq_eq ▸ hvs
      exact .ofExcept (.refl _)

/-- The query takes renamed frames to renamed tables. -/
def Select.Ignores (R : String → String → Prop) (env : Environment) (query : Select) : Prop :=
  Relates (State.Renamed R) (Table.Renamed R) (evaluateSelect env query) (evaluateSelect env query)

theorem leaves_renamed : Expr.Leaves env (State.Renamed R) (Context.Renamed R)
    (fun expr => ∀ m ∈ expr.mentions, fits m)
    (fun query => (∀ m ∈ query.mentions, fits m) → query.Ignores R env) where
  operands hf hp m hm := hf m (Expr.mem_mentions_of_operand hp hm)
  column hf := ignores_column hN (hf _ (by simp [Expr.mentions]))
  aggregate _ _ _ ha := ignores_aggregate ha
  query hf hq h := (h fun m hm => hf m (Expr.mem_mentions_of_query hq hm)).mono
    fun _ _ hab => hab.content

end

/-! ## Queries -/

namespace Select

variable {query query' : Select} {source source' : Eval Table} {s t : State}

/-- The clauses behind the select list, from results that differ in names only. -/
theorem outcomes_behind (hR : OneToOne R)
    (hq : ∀ key ∈ query.orderBy, ∀ q, key.column.table = some q → R q q)
    (ho : IgnoresOption R (query.offset.map (evaluate env)))
    (hl : IgnoresOption R (query.limit.map (evaluate env)))
    (h : Outcomes (State.Renamed R) (Table.Renamed R)
      (((query.parts env).selected env query source).runFrom s)
      (((query'.parts env).selected env query' source').runFrom t))
    (hkeys : query'.orderBy = query.orderBy) (hoffset : query'.offset = query.offset)
    (hlimit : query'.limit = query.limit) :
    Outcomes (State.Renamed R) (Table.Renamed R)
      (((query.parts env).skipped env query source >>=
        Clause.limit (query.limit.map (evaluate env))).runFrom s)
      (((query'.parts env).skipped env query' source' >>=
        Clause.limit (query'.limit.map (evaluate env))).runFrom t) := by
  have hordered : Outcomes (State.Renamed R) (Table.Renamed R)
      (((query.parts env).ordered env query source).runFrom s)
      (((query'.parts env).ordered env query' source').runFrom t) := by
    refine h.bind fun a b u v _ _ hab huv => ?_
    rw [hkeys]
    split
    · exact .yield hab huv
    · exact Clause.relates_order hR hq hab u v huv
  have hskipped : Outcomes (State.Renamed R) (Table.Renamed R)
      (((query.parts env).skipped env query source).runFrom s)
      (((query'.parts env).skipped env query' source').runFrom t) := by
    refine hordered.bind fun a b u v _ _ hab huv => ?_
    simp only [parts, hoffset]
    exact Clause.relates_offset ho hab u v huv
  rw [hlimit]
  exact hskipped.bind fun a b u v _ _ hab huv => Clause.relates_limit hl hab u v huv

section

variable (hN : Renaming R env.settings.labelStem fits)
  (h : query.PartsHold (fun expr => (∀ m ∈ expr.mentions, fits m) → (evaluate env expr).Ignores R)
    fun inner => (∀ m ∈ inner.mentions, fits m) → inner.Ignores R env)
  (hm : query.PartsFit fits)

omit hN h hm in
theorem ignores_option {expr? : Option Expr}
    (h : ∀ expr, expr? = some expr → (∀ m ∈ expr.mentions, fits m) → (evaluate env expr).Ignores R)
    (hm : ∀ m ∈ optionMentions expr?, fits m) : IgnoresOption R (expr?.map (evaluate env)) := by
  intro meaning he
  obtain ⟨expr, hs, rfl⟩ := Option.map_eq_some_iff.mp he
  exact h expr hs fun m hx => hm m (mem_optionMentions.mpr ⟨expr, hs, hx⟩)

include h hm

omit hN in
theorem ignores_columns : ∀ meaning ∈ (query.parts env).columns, meaning.Ignores R := by
  intro meaning hx
  obtain ⟨column, hc, rfl⟩ := List.mem_map.mp hx
  exact h.columns column hc (hm.columns column hc)

include hN

theorem relates_joined {ref : TableRef} (hs : query.source = some ref) :
    Relates (State.Renamed R) (Table.Renamed R)
      (Pipeline.joined (evaluateTableRef env false ref) (query.parts env).joins)
      (Pipeline.joined (evaluateTableRef env false ref) (query.parts env).joins) := by
  have hsource := Clause.relates_tableRef hN false (hm.source ref hs) (h.source ref hs)
  refine hsource.bind fun a b hab => (relator (State.Renamed R)).foldlM
    (P := fun join join' => join = join' ∧ join ∈ (query.parts env).joins)
    (List.forall₂_same.mpr fun join hx => ⟨rfl, hx⟩) (fun left left' join _ hl hx => ?_) hab.1
  obtain ⟨rfl, hx⟩ := hx
  obtain ⟨join, hj, rfl⟩ := List.mem_map.mp hx
  rw [evaluateJoin_eq, evaluateJoin_eq]
  exact Clause.relates_join hN join.pos join.kind (hm.joins join hj _ join.table.mention_mem)
    (Clause.relates_tableRef hN true (hm.joins join hj) (h.joins join hj))
    (ignores_option (h.conditions join hj) (hm.conditions join hj)) hl

theorem relates_filtered {ref : TableRef} (hs : query.source = some ref) :
    Relates (State.Renamed R) (Table.Renamed R)
      ((query.parts env).filtered (evaluateTableRef env false ref))
      ((query.parts env).filtered (evaluateTableRef env false ref)) :=
  (relates_joined hN h hm hs).bind fun _ _ hab =>
    Clause.relates_filter (ignores_option h.filter hm.filter) hab

theorem relates_selected {ref : TableRef} (hs : query.source = some ref) :
    Relates (State.Renamed R) (Table.Renamed R)
      ((query.parts env).selected env query (evaluateTableRef env false ref))
      ((query.parts env).selected env query (evaluateTableRef env false ref)) := by
  have hR : OneToOne R := hN.oneToOne
  have hcolumns := ignores_columns h hm
  refine (relates_filtered hN h hm hs).bind fun a b hab => ?_
  split
  · exact Clause.relates_project hcolumns hR _ hab
  · refine (Clause.relates_groups hR (fun ref href q hq => hN.qualifier (hm.groupBy ref href) hq)
      query.columns hab.rows).bind fun groups groups' hg => ?_
    refine (Clause.relates_groupTable hcolumns _ (hN.grouped hab.name) hg).bind fun a b hab => ?_
    exact Clause.relates_having hR (ignores_option h.having hm.having) hg hab

theorem relates_pipeline : Relates (State.Renamed R) (Table.Renamed R) (query.pipeline env)
    (query.pipeline env) := by
  cases hstar : query.star with
  | true =>
    rw [pipeline_star hstar]
    exact .throw _ _
  | false =>
    cases hsource : query.source with
    | none =>
      rw [pipeline_single hstar hsource]
      exact Clause.relates_single (ignores_columns h hm) _ hN.result
    | some ref =>
      rw [pipeline_from hstar hsource]
      split
      · exact .throw _ _
      · intro s t hst
        exact outcomes_behind hN.oneToOne (fun key hk q hq => hN.qualifier (hm.orderBy key hk) hq)
          (ignores_option h.offset hm.offset) (ignores_option h.limit hm.limit)
          (relates_selected hN h hm hsource s t hst) rfl rfl rfl

end

end Select

theorem steps_renamed (hN : Renaming R env.settings.labelStem fits) :
    TreeSteps (fun expr => (∀ m ∈ expr.mentions, fits m) → (evaluate env expr).Ignores R)
      fun query => (∀ m ∈ query.mentions, fits m) → query.Ignores R env := by
  refine (leaves_renamed hN).steps fun query h hm => ?_
  have henclosed : (query.pipeline env).Moves State.Enclosed :=
    State.stepRelation_enclosed.moves_pipeline env query
  unfold Select.Ignores
  rw [evaluateSelect_eq]
  exact (Select.relates_pipeline hN h (Select.partsFit hm)).inChildScope henclosed henclosed

/-- An expression whose mentions are fit for the renaming has the same value in renamed frames on
renamed rows, or it fails in both. -/
theorem Renaming.ignores (hN : Renaming R env.settings.labelStem fits) (expr : Expr)
    (hm : ∀ m ∈ expr.mentions, fits m) : (evaluate env expr).Ignores R :=
  (steps_renamed hN).expr expr hm

/-- A query whose mentions are fit for the renaming has the same content in renamed frames, or it
fails in both. -/
theorem Renaming.content (hN : Renaming R env.settings.labelStem fits) (query : Select)
    (hm : ∀ m ∈ query.mentions, fits m) {s t : State} (h : s.Renamed R t) :
    contentOf ((evaluateSelect env query).runFrom s).1 =
      contentOf ((evaluateSelect env query).runFrom t).1 :=
  (((steps_renamed hN).query query hm s t h).both.mono fun _ _ hab => hab.content).contentOf

end TableQuery
