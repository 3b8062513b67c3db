import TableQuery.Proofs.Engine.History
import TableQuery.Proofs.Evaluation.Nesting

/-! # Subqueries on their own

A subquery that reads bound tables only, under labels that mean nothing around it, and qualifies its
columns by these labels, has one outcome wherever it stands: the one that it has as a query of its
own. Having, limit and offset are the exception. Names are found in the result of the query around
it there, so a table that this result hides is not the table that the caller has bound. -/

namespace TableQuery

namespace Select

/-- The query takes rows from a table of that name, at whatever depth. -/
def Reads (query : Select) (name : String) : Prop :=
  ∃ label, .item (some name) label ∈ query.mentions

/-- The query gives that label, at whatever depth. -/
def Labels (query : Select) (label : String) : Prop :=
  ∃ source, .item source (some label) ∈ query.mentions

/-- A query that reads bound tables, each under a label, and qualifies its columns by its own
labels. -/
structure SelfContained (bound : List String) (query : Select) : Prop where
  reads : ∀ name, query.Reads name → name ∈ bound
  labelled : ∀ name label, .item (some name) label ∈ query.mentions → label ≠ none
  qualified : ∀ ref, .column ref ∈ query.mentions →
    ∃ qualifier, ref.table = some qualifier ∧ query.Labels qualifier

/-- The names of a query that gives all labels itself. -/
def ownVocabulary (query : Select) : Vocabulary := ⟨query.Reads, query.Labels, False⟩

theorem SelfContained.fits {bound : List String} {query : Select} (h : query.SelfContained bound) :
    ∀ m ∈ query.mentions, query.ownVocabulary.Fits m := by
  intro m hm
  cases m with
  | column ref =>
    intro qualifier hq
    obtain ⟨own, ho, hl⟩ := h.qualified ref hm
    rw [hq] at ho
    cases ho
    exact hl
  | item source label =>
    refine ⟨fun name hn => ⟨label, hn ▸ hm⟩, fun own ho => ⟨source, ho ▸ hm⟩, fun hs hl => ?_⟩
    obtain ⟨name, rfl⟩ := Option.ne_none_iff_exists'.mp hs
    exact h.labelled name label hm hl

/-- The query for a column of a table, which gets a label. -/
def ofColumn (table label field : String) : Select :=
  { pos := ⟨1, 1⟩, star := false, columns := [⟨.column ⟨⟨1, 8⟩, some label, field⟩, none⟩],
    source := some ⟨⟨1, 15⟩, .table table, some label⟩, joins := [], filter := none,
    groupBy := [], having := none, orderBy := [], limit := none, offset := none }

theorem mem_mentions_ofColumn {table label field : String} {m : Mention} :
    m ∈ (ofColumn table label field).mentions ↔
      m = .column ⟨⟨1, 8⟩, some label, field⟩ ∨ m = .item (some table) (some label) := by
  simp [ofColumn, mentions, columnsMentions, Expr.mentions, sourceMentions, TableRef.mentions,
    TableRef.mention, TableRef.name?, joinsMentions, optionMentions, eachMentions]

theorem labels_ofColumn {table label field own : String} :
    (ofColumn table label field).Labels own ↔ own = label := by
  simp [Labels, mem_mentions_ofColumn]

theorem reads_ofColumn {table label field name : String} :
    (ofColumn table label field).Reads name ↔ name = table := by
  simp [Reads, mem_mentions_ofColumn]

theorem selfContained_ofColumn {table label field : String} {bound : List String}
    (h : table ∈ bound) : (ofColumn table label field).SelfContained bound where
  reads name hr := by
    rw [reads_ofColumn.mp hr]
    exact h
  labelled name own hm := by
    simp only [mem_mentions_ofColumn, Mention.item.injEq, reduceCtorEq, false_or] at hm
    rw [hm.2]
    nofun
  qualified ref hm := by
    simp only [mem_mentions_ofColumn, Mention.column.injEq, reduceCtorEq, or_false] at hm
    exact ⟨label, by rw [hm], labels_ofColumn.mpr rfl⟩

end Select

namespace Engine

/-- A self-contained subquery whose labels are free has the outcome that it has on its own, in every
place of the queries around it. In having, limit and offset, the frame must not hide a table that it
reads. -/
theorem subquery_independent_of_place (settings : Settings) (functions : Registry)
    (bindings : List (String × Table)) (calls : List Call) (top query : Select) (t : State)
    (hn : Nested ⟨settings, functions⟩
      (fun frame => ∀ name, query.Reads name → frame.find? name = none) top
      (session settings functions bindings calls).state query t)
    (hq : query.SelfContained ((allBindings bindings calls).map (·.1)))
    (hl : ∀ label, query.Labels label → t.scope.tableName? label = none) :
    ((evaluateSelect ⟨settings, functions⟩ query).runFrom t).1 =
      ((session settings functions bindings calls).execute query).1 := by
  have hrest := rests_session settings functions bindings calls
  have hholds := Frame.holds_bindAll (allBindings bindings calls)
  have hframes : (session settings functions bindings calls).state.scope.frames =
      [Frame.empty.bindAll (allBindings bindings calls)] := by
    rw [hrest.scope]
    rfl
  show _ = ((evaluateSelect (session settings functions bindings calls).env query).runFrom
    (session settings functions bindings calls).state).1
  rw [env_session]
  revert hframes hholds hrest hn
  generalize Frame.empty.bindAll (allBindings bindings calls) = root
  generalize (session settings functions bindings calls).state = s
  intro hn hrest hholds hframes
  have hroot : root ∈ s.scope.frames := by
    rw [hframes]
    exact List.mem_singleton.mpr rfl
  have hclosed : ∀ frame ∈ s.scope.frames, frame.Closed := by
    rw [hframes]
    exact List.forall_mem_singleton.mpr hholds.closed
  have hshows := hn.shows hroot hclosed
    (fun name hr => by rw [hholds.tableName?_eq (hq.reads name hr)]; rfl)
    (fun name _ => by rw [hframes]; exact List.forall_mem_singleton.mpr (.inr rfl))
  -- labels that are free where the subquery stands are free in the root frame
  have hfree : ∀ label, query.Labels label → root.tableName? label = none := fun label hlabel =>
    List.findSome?_eq_none_iff.mp (hl label hlabel) root (hn.mem_frames hroot)
  refine evaluateSelect_agrees hq.fits (V := query.ownVocabulary) ⟨?_, ?_, ?_, nofun, nofun⟩
  · intro name hr
    rw [hframes]
    exact (Scope.find?_of_shows (hn.mem_frames hroot) (hshows name hr)).trans (by simp)
  · intro label hlabel
    rw [hframes]
    exact (hl label hlabel).trans (by simp [hfree label hlabel])
  · intro label hlabel
    rw [hframes]
    have hnone := hholds.closed.table?_eq_none (hfree label hlabel)
    exact (Scope.table?_eq_none (hn.closed hclosed) (hl label hlabel)).trans (by simp [hnone])

theorem subquery_in_limit_as_on_its_own :
    ((evaluateSelect ⟨.standard, .standard⟩ (.ofColumn "u" "b" "x")).runFrom
      ⟨⟨(Frame.empty.bind (.ofFields "t" ["x"]) "a").rebound (.ofFields "t" ["x"]),
        [Frame.empty.bindAll [("t", .ofFields "t" ["x"]), ("u", .ofFields "u" ["x"])]]⟩,
        none, 0⟩).1 =
      ((session .standard .standard
        [("t", .ofFields "t" ["x"]), ("u", .ofFields "u" ["x"])] []).execute
          (.ofColumn "u" "b" "x")).1 := by
  refine subquery_independent_of_place .standard .standard
    [("t", .ofFields "t" ["x"]), ("u", .ofFields "u" ["x"])] []
    { Select.ofColumn "t" "a" "x" with limit := some (.subquery (.ofColumn "u" "b" "x")) } _ _
    (.inner .top (.table (.limit rfl rfl rfl rfl (.refl _)) rfl (.refl _)) fun _ name hr => ?_)
    (Select.selfContained_ofColumn (by decide)) fun label hlabel => ?_
  · rw [Select.reads_ofColumn.mp hr]
    rfl
  · rw [Select.labels_ofColumn.mp hlabel]
    rfl

/-- In limit, a table may be hidden by the result of the query that reads it. -/
theorem limit_hides_bound_table :
    ¬∀ (settings : Settings) (functions : Registry) (bindings : List (String × Table))
      (calls : List Call) (top query : Select) (t : State),
      Nested ⟨settings, functions⟩ (fun _ => True) top
        (session settings functions bindings calls).state query t →
      query.SelfContained ((allBindings bindings calls).map (·.1)) →
      (∀ label, query.Labels label → t.scope.tableName? label = none) →
      ((evaluateSelect ⟨settings, functions⟩ query).runFrom t).1 =
        ((session settings functions bindings calls).execute query).1 := by
  intro h
  have hq := h .standard .standard [("t", .ofFields "t" ["x", "y"])] []
    { Select.ofColumn "t" "a" "x" with limit := some (.subquery (.ofColumn "t" "b" "y")) }
    (.ofColumn "t" "b" "y")
    ⟨⟨(Frame.empty.bind (.ofFields "t" ["x", "y"]) "a").rebound (.ofFields "t" ["x"]),
      [Frame.empty.bindAll [("t", .ofFields "t" ["x", "y"])]]⟩, none, 0⟩
    (.inner .top (.table (.limit rfl rfl rfl rfl (.refl _)) rfl (.refl _)) fun _ => trivial)
    (Select.selfContained_ofColumn (by decide))
    fun label hlabel => by rw [Select.labels_ofColumn.mp hlabel]; rfl
  have hinside : ((evaluateSelect ⟨.standard, .standard⟩ (.ofColumn "t" "b" "y")).runFrom
      ⟨⟨(Frame.empty.bind (.ofFields "t" ["x", "y"]) "a").rebound (.ofFields "t" ["x"]),
        [Frame.empty.bindAll [("t", .ofFields "t" ["x", "y"])]]⟩, none, 0⟩).1 =
      .error (.columnNotFound "b.y") := rfl
  have halone : ((session .standard .standard [("t", .ofFields "t" ["x", "y"])] []).execute
      (.ofColumn "t" "b" "y")).1 = .ok (.ofFields "t" ["y"]) := rfl
  rw [hinside, halone] at hq
  cases hq

end Engine

end TableQuery
