import TableQuery.Proofs.Engine.Subquery

/-! # Qualifiers from around a subquery

A qualifier that a subquery does not bind is looked up in the queries around it, and stands for a
table name there; the column is then looked for under this name in the subquery's own row. There is
none, and the evaluation fails, unless that name is one of two: the name of the table that the
subquery itself reads in its from item, or later, in `having` and `order by`, that of its own
result. That result is bound under its name by then, so that later on its name itself is a qualifier
that finds the subquery's own row. Names of joined tables and of derived tables cannot be met from
outside. -/

namespace TableQuery

/-- In the scopes around the query, which is called in the state `s`, the qualifier stands for what
the query's own rows belong to: for the table that its from item reads, or in late places for its
result, the only table of its frame by then. In late places it may also be the name of that result
itself. -/
def Select.Meets (query : Select) (s : State) (place : Place) (t : State) (qualifier : String) :
    Prop :=
  if place.late then
    ∃ result, t.scope.innermost.allTables = [result] ∧
      (qualifier = result.name ∨ s.scope.tableName? qualifier = some result.name)
  else
    ∃ base name, query.base? s.scope = some base ∧ s.scope.tableName? qualifier = some name ∧
      base.Carries name

variable {env : Environment} {query : Select} {s t : State} {place : Place} {items : Frame}
  {ref : ColumnRef} {row : Row} {column : Column} {v : Value} {qualifier : String}

/-- In closed frames the table that a qualifier stands for is the one of its label. -/
theorem Scope.tableName?_of_resolve {scope : Scope} (hc : ∀ frame ∈ scope.frames, frame.Closed)
    (hq : ref.table = some qualifier) (h : scope.resolve ref row = .ok (column, v)) :
    scope.tableName? qualifier = some column.table ∧ column ∈ row.columns := by
  obtain ⟨ht, hm⟩ := Scope.resolve_ok h
  refine ⟨?_, hm⟩
  rw [tableOf, hq] at ht
  change scope.qualified qualifier = .ok column.table at ht
  unfold qualified at ht
  cases hl : scope.tableName? qualifier with
  | some name =>
    rw [hl] at ht
    cases ht
    rfl
  | none =>
    rw [hl, Scope.table?_eq_none hc hl] at ht
    cases ht

/-- If a column is found although the query does not bind the qualifier, then the qualifier meets
the query's own rows. -/
theorem Select.Evaluates.meets (he : query.Evaluates env s place items (.column ref row) t)
    (hs : ∀ frame ∈ s.scope.frames, frame.Closed) (hq : ref.table = some qualifier)
    (hu : items.tableName? qualifier = none)
    (h : t.scope.resolve ref row = .ok (column, v)) : query.Meets s place t qualifier := by
  have hsound := he.sound
  obtain ⟨hname, hm⟩ := Scope.tableName?_of_resolve (he.closed hs) hq h
  unfold Select.Meets
  cases hl : place.late with
  | true =>
    obtain ⟨result, hi, hrow⟩ := hsound.late hl
    refine ⟨result, by rw [hi]; exact items.allTables_rebound result, ?_⟩
    rw [hrow row rfl column hm, Scope.tableName?_eq, hi, Frame.tableName?_rebound, hu,
      hsound.outer] at hname
    -- labels of items stand for the result now, but the qualifier is none of them
    by_cases hown : qualifier = result.name
    · exact .inl hown
    · rw [if_neg hown] at hname
      exact .inr hname
  | false =>
    obtain ⟨hi, hrow⟩ := hsound.early hl
    have hout : s.scope.tableName? qualifier = some column.table := by
      rw [Scope.tableName?_eq, hi, hu, hsound.outer] at hname
      exact hname
    -- outside, the name is a label as well, so it is none of the free names
    have hknown := Scope.tableName?_of_tableName? hs hout
    rcases hrow row rfl column hm with hfree | ⟨base, hb, hcarries⟩
    · rw [hfree] at hknown
      cases hknown
    · exact ⟨base, column.table, hb, hout, hcarries⟩

namespace Engine

/-- Evaluated against a row of a query, nested at whatever depth, a reference fails if its qualifier
is bound by no item of the query. The exceptions are a qualifier that stands, in the scopes around
the query, for what the query's own rows belong to, and in late places the name of the query's own
result. -/
theorem foreign_qualifier_fails (settings : Settings) (functions : Registry)
    (bindings : List (String × Table)) (calls : List Call) (top query : Select) (s t : State)
    (place : Place) (items : Frame) (ref : ColumnRef) (row : Row) (qualifier : String)
    (hn : Nested ⟨settings, functions⟩ (fun _ => True) top
      (session settings functions bindings calls).state query s)
    (he : query.Evaluates ⟨settings, functions⟩ s place items (.column ref row) t)
    (hq : ref.table = some qualifier) (hu : items.tableName? qualifier = none)
    (hm : ¬query.Meets s place t qualifier) : ∃ e, t.scope.resolve ref row = .error e := by
  have hholds := Frame.holds_bindAll (allBindings bindings calls)
  have hclosed : ∀ frame ∈ (session settings functions bindings calls).state.scope.frames,
      frame.Closed := by
    rw [(rests_session settings functions bindings calls).scope]
    exact List.forall_mem_singleton.mpr hholds.closed
  cases h : t.scope.resolve ref row with
  | error e => exact ⟨e, rfl⟩
  | ok found => exact absurd (he.meets (hn.closed hclosed) hq hu h) hm

theorem outer_label_fails_on_other_table :
    ∃ e, Scope.resolve ⟨Frame.empty.bind (.ofFields "u" ["x"]) "b",
      [Frame.empty.bind (.ofFields "t" ["x"]) "a",
        Frame.empty.bindAll [("t", .ofFields "t" ["x"]), ("u", .ofFields "u" ["x"])]]⟩
      ⟨⟨1, 30⟩, some "a", "x"⟩ (Row.nulls "u" ["x"]) = .error e := by
  let ref : ColumnRef := ⟨⟨1, 30⟩, some "a", "x"⟩
  let inner : Select := { Select.ofColumn "u" "b" "x" with filter := some (.column ref) }
  let s : State := ⟨⟨Frame.empty.bind (.ofFields "t" ["x"]) "a",
    [Frame.empty.bindAll [("t", .ofFields "t" ["x"]), ("u", .ofFields "u" ["x"])]]⟩, none, 0⟩
  let t : State := ⟨⟨Frame.empty.bind (.ofFields "u" ["x"]) "b", s.scope.frames⟩, none, 0⟩
  have hvalue : inner.Evaluates ⟨.standard, .standard⟩ s .filter t.scope.innermost
      (.value (.column ref) (.ofRow (Row.nulls "u" ["x"]))) t :=
    .filter rfl rfl rfl (.head _) (.refl _)
  refine foreign_qualifier_fails .standard .standard
    [("t", .ofFields "t" ["x"]), ("u", .ofFields "u" ["x"])] []
    { Select.ofColumn "t" "a" "x" with filter := some (.existence ⟨1, 25⟩ inner) } inner s t
    .filter t.scope.innermost ref (Row.nulls "u" ["x"]) "a"
    (.inner .top (.table (.filter rfl rfl rfl (.head _) (.refl _)) rfl (.refl _)) fun _ => trivial)
    (.column hvalue rfl) rfl rfl ?_
  rintro ⟨base, name, hb, hn, row, hr, column, hc, rfl⟩
  cases hb
  cases List.mem_singleton.mp hr
  cases List.mem_singleton.mp hc
  -- the label stands for the table t, but the row is one of u
  have hne : (some "t" : Option String) ≠ some "u" := by decide
  exact hne hn

/-- A label from around a subquery that reads the same table finds the subquery's own row. -/
theorem outer_label_finds_inner_row :
    ¬∀ (settings : Settings) (functions : Registry) (bindings : List (String × Table))
      (calls : List Call) (top query : Select) (s t : State) (place : Place) (items : Frame)
      (ref : ColumnRef) (row : Row) (qualifier : String),
      Nested ⟨settings, functions⟩ (fun _ => True) top
        (session settings functions bindings calls).state query s →
      query.Evaluates ⟨settings, functions⟩ s place items (.column ref row) t →
      ref.table = some qualifier → items.tableName? qualifier = none →
      ∃ e, t.scope.resolve ref row = .error e := by
  intro h
  let ref : ColumnRef := ⟨⟨1, 30⟩, some "a", "x"⟩
  let inner : Select := { Select.ofColumn "t" "b" "x" with filter := some (.column ref) }
  let s : State := ⟨⟨Frame.empty.bind (.ofFields "t" ["x"]) "a",
    [Frame.empty.bindAll [("t", .ofFields "t" ["x"])]]⟩, none, 0⟩
  let t : State := ⟨⟨Frame.empty.bind (.ofFields "t" ["x"]) "b", s.scope.frames⟩, none, 0⟩
  have hvalue : inner.Evaluates ⟨.standard, .standard⟩ s .filter t.scope.innermost
      (.value (.column ref) (.ofRow (Row.nulls "t" ["x"]))) t :=
    .filter rfl rfl rfl (.head _) (.refl _)
  obtain ⟨e, he⟩ := h .standard .standard [("t", .ofFields "t" ["x"])] []
    { Select.ofColumn "t" "a" "x" with filter := some (.existence ⟨1, 25⟩ inner) } inner s t
    .filter t.scope.innermost ref (Row.nulls "t" ["x"]) "a"
    (.inner .top (.table (.filter rfl rfl rfl (.head _) (.refl _)) rfl (.refl _)) fun _ => trivial)
    (.column hvalue rfl) rfl rfl
  cases he

end Engine

end TableQuery
