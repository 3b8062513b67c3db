import Mathlib
import TableQuery.Engine
import TableQuery.Proofs.Evaluation.Placement
import TableQuery.Proofs.Token.Lowercase

/-! # Layout of queries

What an engine makes of a query depends on its words only. An engine that lower-cases its texts is
no exception, unless a string with a capital sigma in it is among the words: the small letter for it
is another one at the end of a word, and what stands behind the string decides where that is. -/

namespace TableQuery

namespace Engine

/-- The words that are read are the same, if the words that are written are. -/
theorem wordsOf_prepare (engine : Engine) {a b : String} (h : Token.wordsOf a = Token.wordsOf b)
    (hl : engine.env.settings.lowercases = true →
      (∃ words, Token.wordsOf a = .ok words ∧ ∀ t ∈ words, 'Σ' ∉ t.lexeme.toList) ∨
        Token.wordsOf (Text.lowercase a) = Token.wordsOf (Text.lowercase b)) :
    Token.wordsOf (engine.prepare a) = Token.wordsOf (engine.prepare b) := by
  unfold prepare
  split
  · next hlowers =>
    rcases hl hlowers with ⟨words, hwords, hfree⟩ | hl
    · rw [Token.wordsOf_lowercase hwords hfree, Token.wordsOf_lowercase (h ▸ hwords) hfree]
    · exact hl
  · exact h

theorem query_of_read (engine : Engine) {text : String} {query : Select}
    (h : Select.ofText? (engine.prepare text) = .ok query) :
    engine.query text = engine.execute query := by
  rw [Engine.query, h]

/-- Texts that are read as the same words have the same outcome, but for positions in a failure. -/
theorem query_of_words (engine : Engine) {a b : String}
    (h : Token.wordsOf (engine.prepare a) = Token.wordsOf (engine.prepare b)) :
    Matching Eq (engine.query a).1 (engine.query b).1 ∧
      (engine.query a).2 = (engine.query b).2 := by
  unfold query
  rcases Select.ofText?_of_words h with ⟨q, q', hq, hq', hsame⟩ | ⟨e, e', he, he', hsame⟩
  · rw [hq, hq']
    obtain ⟨houtcome, hstate⟩ := evaluateSelect_placeless engine.env hsame engine.state
    exact ⟨houtcome, congrArg (fun state => { engine with state }) hstate⟩
  · rw [he, he']
    exact ⟨.error (congrArg QueryError.parse hsame), rfl⟩

/-- Texts with the same words are read as one query, but for positions, or not read for one reason;
and engines come to one table with them, or fail in one way. -/
theorem layout_unseen {a b : String} (h : Token.wordsOf a = Token.wordsOf b) :
    ((∃ query query', Select.ofText? a = .ok query ∧ Select.ofText? b = .ok query' ∧
        query.unplaced = query'.unplaced) ∨
      ∃ e e', Select.ofText? a = .error e ∧ Select.ofText? b = .error e' ∧
        e.unplaced = e'.unplaced ∧ UpToPlaces e.message e'.message) ∧
    ∀ engine : Engine,
      (engine.env.settings.lowercases = true →
        (∃ words, Token.wordsOf a = .ok words ∧ ∀ t ∈ words, 'Σ' ∉ t.lexeme.toList) ∨
          Token.wordsOf (Text.lowercase a) = Token.wordsOf (Text.lowercase b)) →
      ((∃ table, (engine.query a).1 = .ok table ∧ (engine.query b).1 = .ok table) ∨
        ∃ e e', (engine.query a).1 = .error e ∧ (engine.query b).1 = .error e' ∧
          e.unplaced = e'.unplaced ∧ UpToPlaces e.message e'.message) ∧
      (engine.query a).2 = (engine.query b).2 := by
  refine ⟨?_, fun engine hl => ?_⟩
  · rcases Select.ofText?_of_words h with hread | ⟨e, e', he, he', hsame⟩
    · exact .inl hread
    · exact .inr ⟨e, e', he, he', hsame, e.message_upToPlaces hsame⟩
  · obtain ⟨houtcome, hnext⟩ := engine.query_of_words (engine.wordsOf_prepare h hl)
    refine ⟨?_, hnext⟩
    generalize (engine.query a).1 = outcome at houtcome ⊢
    generalize (engine.query b).1 = outcome' at houtcome ⊢
    cases houtcome with
    | @ok table table' htable =>
      cases htable
      exact .inl ⟨table, rfl, rfl⟩
    | @error e e' he => exact .inr ⟨e, e', rfl, rfl, he, e.message_upToPlaces he⟩

/-- A comment and a line break, in front of an engine that lower-cases its texts. -/
theorem layout_unseen_comment :
    let engine := Engine.new ⟨true, "t"⟩ .standard
    let first := "select NULL as X"
    let second := "select -- Σ\nNULL as X"
    Token.wordsOf first = Token.wordsOf second ∧
      ∃ table, (engine.query first).1 = .ok table ∧ (engine.query second).1 = .ok table := by
  intro engine first second
  have hwords : Token.wordsOf first = .ok [.word .select, .name "NULL", .word .as, .name "X",
      .symbol .endOfText ""] := by
    cbv
  have hwords' : Token.wordsOf second = Token.wordsOf first := by
    rw [hwords]
    cbv
  have hlower : engine.prepare first = "select null as x" := by decide +kernel
  have hread : Select.ofText? (engine.prepare first) =
      .ok ⟨⟨1, 1⟩, false, [⟨.literal ⟨1, 8⟩ .null, some "x"⟩], none, [], none, [], none, [], none,
        none⟩ := by
    rw [hlower]
    cbv
  have hok : (engine.query first).1 =
      .ok ⟨"result", ["x"], [⟨[("result", 0)], [⟨"result", "x", "x", 0⟩], [.null]⟩]⟩ := by
    rw [engine.query_of_read hread]
    rfl
  refine ⟨hwords'.symm, ?_⟩
  have hunseen := ((layout_unseen hwords'.symm).2 engine fun _ => .inl ⟨_, hwords, by decide⟩).1
  rw [hok] at hunseen
  rcases hunseen with ⟨table, htable, hsecond⟩ | ⟨e, e', he, -⟩
  · exact ⟨table, by rw [hok, htable], hsecond⟩
  · cases he

/-- What stands behind the string decides which small sigma is read. -/
theorem layout_seen_by_sigma :
    let engine := Engine.new ⟨true, "t"⟩ .standard
    let result (text : String) : Table :=
      ⟨"result", ["x"], [⟨[("result", 0)], [⟨"result", "x", "x", 0⟩], [.text text]⟩]⟩
    Token.wordsOf "select 'aΣ' as x" = Token.wordsOf "select 'aΣ'as x" ∧
      (engine.query "select 'aΣ' as x").1 = .ok (result "aς") ∧
      (engine.query "select 'aΣ'as x").1 = .ok (result "aσ") := by
  intro engine result
  let read (text : String) : Select :=
    ⟨⟨1, 1⟩, false, [⟨.literal ⟨1, 8⟩ (.text text), some "x"⟩], none, [], none, [], none, [], none,
      none⟩
  have hlast : engine.prepare "select 'aΣ' as x" = "select 'aς' as x" := by decide +kernel
  have hinside : engine.prepare "select 'aΣ'as x" = "select 'aσ'as x" := by decide +kernel
  have hread : Select.ofText? "select 'aς' as x" = .ok (read "aς") := by cbv
  have hread' : Select.ofText? "select 'aσ'as x" = .ok (read "aσ") := by cbv
  refine ⟨by cbv, ?_, ?_⟩
  · rw [engine.query_of_read (hlast ▸ hread)]
    rfl
  · rw [engine.query_of_read (hinside ▸ hread')]
    rfl

end Engine

end TableQuery
