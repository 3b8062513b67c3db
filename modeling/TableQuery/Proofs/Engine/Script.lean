import Mathlib
import TableQuery.Engine
import TableQuery.Proofs.Query.Script

/-! # Scripts run statement by statement

A script comes to what its statements come to one after the other, up to the first one that fails;
those behind it are not run. -/

namespace TableQuery

namespace Engine

/-- What comes of queries asked one after the other, the later ones also after a failure. -/
def outcomes (engine : Engine) : List Select → List (Except QueryError Table)
  | [] => []
  | query :: rest => (engine.execute query).1 :: outcomes (engine.execute query).2 rest

/-- The engine after queries asked one after the other. -/
def afterEach (engine : Engine) (queries : List Select) : Engine :=
  queries.foldl (fun engine query => (engine.execute query).2) engine

/-- Queries are run up to the first that fails, and none behind it. -/
theorem executeAll_eq (engine : Engine) (queries : List Select) :
    (∃ tables : List Table, engine.outcomes queries = tables.map .ok ∧
        engine.executeAll queries = (.ok tables, engine.afterEach queries)) ∨
      ∃ (tables : List Table) (e : QueryError) (later : List (Except QueryError Table)),
        engine.outcomes queries = tables.map .ok ++ .error e :: later ∧
        engine.executeAll queries =
          (.error e, engine.afterEach (queries.take (tables.length + 1))) := by
  induction queries generalizing engine with
  | nil => exact .inl ⟨[], rfl, rfl⟩
  | cons query rest ih =>
    rw [outcomes, executeAll]
    cases hrun : engine.execute query with
    | mk outcome next =>
      have hnext (queries : List Select) :
          engine.afterEach (query :: queries) = next.afterEach queries := by
        simp [afterEach, hrun]
      cases outcome with
      | error e =>
        refine .inr ⟨[], e, next.outcomes rest, rfl, ?_⟩
        rw [List.length_nil, List.take_succ_cons, hnext]
        rfl
      | ok table =>
        dsimp only
        rcases ih next with ⟨tables, houtcomes, hall⟩ | ⟨tables, e, later, houtcomes, hall⟩
        · refine .inl ⟨table :: tables, ?_, ?_⟩
          · rw [houtcomes, List.map_cons]
          · rw [hall, hnext]
            rfl
        · refine .inr ⟨table :: tables, e, later, ?_, ?_⟩
          · rw [houtcomes, List.map_cons, List.cons_append]
          · rw [hall, List.length_cons, List.take_succ_cons, hnext]
            rfl

/-- Statements that can be read one by one are read alike with semicolons between them, and the
first one that cannot be is why the whole cannot be, unless it only breaks off. A script that has
been read is run statement by statement, up to the first failure. -/
theorem script_statement_by_statement (segments : List Segment) (final : Bool) :
    (∀ queries, List.Forall₂ (fun segment query => segment.alone = .ok query) segments queries →
      (Grammar.script (.ofTokens (Segment.joined final segments))).result = .ok queries) ∧
    (∀ before bad after e, segments = before ++ bad :: after →
      (∀ segment ∈ before, ∃ query, segment.alone = .ok query) → bad.alone = .error e →
      (∀ t, e.token? = some t → t.isEnd = false) →
      (Grammar.script (.ofTokens (Segment.joined final segments))).result = .error e) ∧
    ∀ (engine : Engine) (text : String) (queries : List Select),
      Select.scriptOfText? (engine.prepare text) = .ok queries →
      (∃ tables : List Table, engine.outcomes queries = tables.map .ok ∧
          engine.script text = (.ok tables, engine.afterEach queries)) ∨
        ∃ (tables : List Table) (e : QueryError) (later : List (Except QueryError Table)),
          engine.outcomes queries = tables.map .ok ++ .error e :: later ∧
          engine.script text =
            (.error e, engine.afterEach (queries.take (tables.length + 1))) := by
  obtain ⟨last, hlast, hof⟩ := Grammar.ofTokens_of_isRead (Segment.isRead_joined final segments)
  rw [hof]
  refine ⟨fun queries h => ?_, ?_, fun engine text queries h => ?_⟩
  · exact (Segment.script_accepts final h hlast).result
  · rintro before bad after e rfl hbefore hbad he
    exact Segment.script_rejects final hbefore hbad he hlast
  · rw [script, h]
    exact engine.executeAll_eq queries

/-- Two statements, and one that is broken between them; where there are no tables, only the first
statement of the last script is run. -/
theorem script_of_statements :
    let constant : Segment :=
      ⟨[.word .select, .ofValue .null], .symbol .semicolon ";", by decide, rfl⟩
    let column : Segment := ⟨[.word .select, .name "x", .word .from, .name "t"],
      .symbol .semicolon ";", by decide, rfl⟩
    let broken : Segment := ⟨[.word .select, .word .from], .symbol .semicolon ";", by decide, rfl⟩
    let constant' : Select := ⟨.start, false, [⟨.literal .start .null, none⟩], none, [], none, [],
      none, [], none, none⟩
    let column' : Select := ⟨.start, false, [⟨.column ⟨.start, none, "x"⟩, none⟩],
      some ⟨.start, .table "t", none⟩, [], none, [], none, [], none, none⟩
    (Grammar.script (.ofTokens (Segment.joined true [constant, column]))).result =
        .ok [constant', column'] ∧
      (Grammar.script (.ofTokens (Segment.joined false [constant, broken, column]))).result =
        .error (.unexpectedToken (.word .from) "Expected expression") ∧
      ((Engine.new .standard .standard).script "select x from t; select null").1 =
        .error (.tableNotFound "t") := by
  intro constant column broken constant' column'
  have hconstant : constant.alone = .ok constant' := by cbv
  have hcolumn : column.alone = .ok column' := by cbv
  have hbroken : broken.alone = .error (.unexpectedToken (.word .from) "Expected expression") := by
    cbv
  refine ⟨?_, ?_, ?_⟩
  · exact (script_statement_by_statement [constant, column] true).1 _
      (.cons hconstant (.cons hcolumn .nil))
  · refine (script_statement_by_statement [constant, broken, column] false).2.1 [constant] broken
      [column] _ rfl (List.forall_mem_singleton.mpr ⟨_, hconstant⟩) hbroken fun t ht => ?_
    cases ht
    rfl
  · obtain ⟨queries, hqueries, hfirst⟩ : ∃ queries,
        Select.scriptOfText? "select x from t; select null" = .ok queries ∧
        ((Engine.new .standard .standard).outcomes queries).head? =
          some (.error (.tableNotFound "t")) :=
      ⟨[⟨⟨1, 1⟩, false, [⟨.column ⟨⟨1, 8⟩, none, "x"⟩, none⟩], some ⟨⟨1, 15⟩, .table "t", none⟩,
          [], none, [], none, [], none, none⟩,
        ⟨⟨1, 18⟩, false, [⟨.literal ⟨1, 25⟩ .null, none⟩], none, [], none, [], none, [], none,
          none⟩], by cbv, by cbv⟩
    have hrun :=
      (script_statement_by_statement [] true).2.2 (.new .standard .standard) _ queries hqueries
    rcases hrun with ⟨tables, houtcomes, -⟩ | ⟨tables, e, later, houtcomes, hscript⟩
    · rw [houtcomes] at hfirst
      cases tables <;> cases hfirst
    · rw [houtcomes] at hfirst
      rw [hscript]
      cases tables with
      | nil =>
        cases hfirst
        rfl
      | cons table tables => cases hfirst

end Engine

end TableQuery
