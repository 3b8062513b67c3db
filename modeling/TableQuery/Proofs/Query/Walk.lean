import TableQuery.Proofs.Query.Grammar

/-! # Calls on one cursor

A caller may read tokens one by one, look at them and have whole rules read from the same cursor, in
any order, and go on after a failure. All of that walks over one list of tokens, from front to back
up to its first end token; what stands behind that token is seen but never reached. -/

namespace TableQuery

/-! ## The tokens of a walk -/

namespace Cursor

/-- Where the end token is placed that a list of tokens lacks. -/
def endPosition (tokens : List Token) : Position :=
  match tokens.getLast? with
  | none => .start
  | some last => ⟨last.pos.line, last.pos.column + last.lexeme.length⟩

/-- The tokens without comments up to the first end token, and an end token where they have none. -/
def walk (tokens : List Token) : List Token :=
  let kept := tokens.filter (·.kind != .comment)
  match kept.find? (·.isEnd) with
  | some last => kept.takeWhile (!·.isEnd) ++ [last]
  | none => kept ++ [⟨.endOfText, "", none, endPosition kept⟩]

/-- A cursor on its way to an end token, with other tokens behind it that rules do not reach. -/
structure Bound (ahead : List Token) (last : Token) (beyond c : Cursor) : Prop where
  eq : c = ahead ++ last :: beyond
  read : ∀ t ∈ ahead, t.kind.isRead = true
  isEnd : last.isEnd = true

theorem isRead_of_inside {t : Token} (hc : (t.kind != .comment) = true) (he : t.isEnd = false) :
    t.kind.isRead = true := by
  unfold TokenKind.isRead
  split
  · next hk => simp [hk] at hc
  · next hk => simp [Token.isEnd, hk] at he
  · rfl

/-- What is walked over are the tokens of a cursor up to the first end token. -/
theorem ofTokens_walk (tokens : List Token) :
    ∃ front last beyond, walk tokens = front ++ [last] ∧
      Bound front last beyond (ofTokens tokens) := by
  have hkept : ∀ t ∈ tokens.filter (·.kind != .comment), (t.kind != .comment) = true :=
    fun t ht => (List.mem_filter.mp ht).2
  unfold walk ofTokens
  dsimp only
  generalize tokens.filter (·.kind != .comment) = kept at hkept ⊢
  cases hfind : kept.find? (·.isEnd) with
  | none =>
    have hinside : ∀ t ∈ kept, t.isEnd = false := by simpa using hfind
    refine ⟨kept, _, [], rfl, ?_, fun t ht => isRead_of_inside (hkept t ht) (hinside t ht), rfl⟩
    unfold endPosition
    cases hl : kept.getLast? with
    | none =>
      rw [List.getLast?_eq_none_iff.mp hl]
      rfl
    | some last => exact if_neg (by simp [hinside last (List.mem_of_getLast? hl)])
  | some last =>
    obtain ⟨hlast, front, beyond, rfl, hfront⟩ := List.find?_eq_some_iff_append.mp hfind
    have hfront : ∀ t ∈ front, (!t.isEnd) = true := fun t ht => hfront t ht
    have htake : (front ++ last :: beyond).takeWhile (!·.isEnd) = front := by
      rw [List.takeWhile_append_of_pos hfront, List.takeWhile_cons_of_neg (by simp [hlast]),
        List.append_nil]
    rw [htake]
    have hread : ∀ t ∈ front, t.kind.isRead = true := fun t ht =>
      isRead_of_inside (hkept t (List.mem_append_left _ ht)) (by simpa using hfront t ht)
    cases hl : (front ++ last :: beyond).getLast? with
    | none => simp at hl
    | some final =>
      dsimp only
      split
      · exact ⟨front, last, beyond, rfl, rfl, hread, hlast⟩
      · exact ⟨front, last, _, rfl, List.append_assoc _ _ _, hread, hlast⟩

/-! ## Reading on the way -/

variable {ahead : List Token} {last : Token} {beyond c rest : Cursor}

theorem Bound.ne_nil (h : Bound ahead last beyond c) : c ≠ [] := by
  rw [h.eq]
  exact List.append_ne_nil_of_right_ne_nil _ (List.cons_ne_nil _ _)

/-- What has been read from a cursor that is bound for an end token stands in front of that
token. -/
theorem Bound.readTo (h : Bound ahead last beyond c) (hr : c.ReadTo rest) :
    ∃ passed left, ahead = passed ++ left ∧ Bound left last beyond rest := by
  obtain ⟨passed, hc, hpassed⟩ := hr
  rw [h.eq] at hc
  obtain ⟨left, rfl, rfl⟩ | ⟨excess, rfl, hexcess⟩ := List.append_eq_append_iff.mp hc.symm
  · exact ⟨passed, left, rfl, rfl, fun t ht => h.read t (List.mem_append_right _ ht), h.isEnd⟩
  · cases excess with
    | nil =>
      exact ⟨ahead, [], (List.append_nil _).symm, hexcess.symm, nofun, h.isEnd⟩
    | cons t excess =>
      -- the end token itself would have been read
      obtain ⟨rfl, -⟩ := List.cons.inj hexcess
      have hread := hpassed last (List.mem_append_right _ List.mem_cons_self)
      exact absurd h.isEnd (by simp [Token.isEnd_of_isRead hread])

theorem Bound.next_readTo (h : Bound ahead last beyond c) : c.ReadTo c.next := by
  obtain ⟨rfl, hread, hlast⟩ := h
  cases ahead with
  | nil =>
    rw [List.nil_append, next, if_pos hlast]
    exact .refl _
  | cons t ahead =>
    have ht := hread t List.mem_cons_self
    rw [List.cons_append, next, if_neg (by simp [Token.isEnd_of_isRead ht])]
    exact .cons ht

theorem length_le_next (c : Cursor) : c.length ≤ c.next.length + 1 := by
  cases c with
  | nil => exact Nat.zero_le 1
  | cons t rest =>
    unfold next
    dsimp only
    split
    · exact Nat.le_succ _
    · exact Nat.le_refl _

end Cursor

/-! ## Rules on the way -/

namespace Grammar

/-- What is built does not matter. -/
theorem builds_any : Builds (fun _ => True) (fun _ _ => True) (fun _ => True) := by
  constructor <;> intros <;> trivial

theorem take_sound {kind : TokenKind} (hk : kind.isRead = true) (expectation : String)
    (c : Cursor) :
    Parsed.Sound (fun _ => True) (fun _ _ => True) c (c.take kind expectation) := by
  unfold Cursor.take
  split
  · next ha => exact Parsed.sound_ok (Cursor.accept?_readTo ha hk) trivial
  · exact Parsed.sound_unexpected expectation

theorem script_sound (c : Cursor) :
    Parsed.Sound (fun _ => True) (fun _ _ => True) c (script c) := by
  unfold script
  split
  · exact Parsed.sound_ok (.refl c) trivial
  · refine (statement_sound builds_any c).bind fun query c₁ h₁ _ => ?_
    refine (script_sound c₁).bind fun queries c₂ h₂ _ => ?_
    exact Parsed.sound_ok (.refl c₂) trivial
termination_by c.length

end Grammar

/-! ## Calls -/

namespace Cursor

/-- What a caller does with a cursor. -/
inductive Call where
  | next
  | advance
  | current
  | peek
  | isAtEnd
  /-- Is the current token of one of these kinds? -/
  | isAt (kinds : List TokenKind)
  | peeks (kind : TokenKind)
  | expect (kind : TokenKind) (expectation : String)
  | identifier
  | unexpected (expectation : String)
  | invalid (reason : String)
  | unsupported (feature : String)
  | statement
  | single
  | script
  | select
  | expression
  | expressions
  | columnRef

/-- What a call returns. -/
inductive Answer where
  | token (t : Option Token)
  | flag (holds : Bool)
  | queries (queries : List Select)
  | exprs (exprs : List Expr)
  | column (ref : ColumnRef)
  | error (e : ParseError)

/-- The failure that a call ends in. -/
def Answer.error? : Answer → Option ParseError
  | error e => some e
  | _ => none

/-- The answer of a move and where the cursor is then. -/
def ofMove : Except ParseFailure (Token × Cursor) → Answer × Cursor
  | .ok (t, rest) => (.token t, rest)
  | .error failure => (.error failure.error, failure.rest)

/-- The answer of a rule and where the cursor is then. -/
def ofRule {α : Type} {n : Nat} (answer : α → Answer) : Parsed α n → Answer × Cursor
  | .ok step => (answer step.value, step.rest)
  | .error failure => (.error failure.error, failure.rest)

def ofFailure (failure : ParseFailure) : Answer × Cursor := (.error failure.error, failure.rest)

/-- The answer to a call and where the cursor is then, with or without a failure. -/
def call (c : Cursor) : Call → Answer × Cursor
  | .next => (.token c.next.current?, c.next)
  | .advance => ofMove c.advance
  | .current => (c.current?.elim (.error .endOfInput) (.token ∘ some), c)
  | .peek => (.token c.peek?, c)
  | .isAtEnd => (.flag c.isAtEnd, c)
  | .isAt kinds => (.flag (kinds.any c.at?), c)
  | .peeks kind => (.flag (c.peeks kind), c)
  | .expect kind expectation => ofMove (c.expect kind expectation)
  | .identifier => ofRule (.token ∘ some) c.identifier
  | .unexpected expectation => ofFailure (c.unexpected expectation)
  | .invalid reason => ofFailure (c.invalid reason)
  | .unsupported feature => ofFailure (c.unsupported feature)
  | .statement => ofRule (.queries [·]) (Grammar.statement c)
  | .single => ofRule (.queries [·]) (Grammar.single c)
  | .script => ofRule .queries (Grammar.script c)
  | .select => ofRule (.queries [·]) (Grammar.select c)
  | .expression => ofRule (.exprs [·]) (Grammar.expression c)
  | .expressions => ofRule .exprs (Grammar.expressions c)
  | .columnRef => ofRule .column (Grammar.columnRef c)

def after (c : Cursor) (call : Call) : Cursor := (c.call call).2

def afterAll (c : Cursor) (calls : List Call) : Cursor := calls.foldl after c

/-- Calls that read one token or none. -/
def Call.readsToken : Call → Bool
  | .next | .advance | .expect _ _ | .identifier => true
  | _ => false

/-- Calls that look at tokens or make an error of the current one. -/
def Call.looks : Call → Bool
  | .current | .peek | .isAtEnd | .isAt _ | .peeks _ | .unexpected _ | .invalid _
  | .unsupported _ => true
  | _ => false

variable {ahead : List Token} {last : Token} {beyond c : Cursor}

/-! ## One call -/

/-- Tokens have been read, and where there still is one the input has not ended. -/
structure Reads (c : Cursor) (outcome : Answer × Cursor) : Prop where
  readTo : c.ReadTo outcome.2
  answer : outcome.2 ≠ [] → outcome.1.error? ≠ some .endOfInput

theorem reads_answer {answer : Answer} {rest : Cursor} (hr : c.ReadTo rest)
    (h : answer.error? = none) : c.Reads (answer, rest) := by
  refine ⟨hr, fun _ he => ?_⟩
  rw [h] at he
  cases he

theorem reads_error {failure : ParseFailure} (hr : c.ReadTo failure.rest) (hb : failure.Blames) :
    c.Reads (.error failure.error, failure.rest) := by
  refine ⟨hr, fun hrest he => ?_⟩
  have htoken := hb.token?_isSome hrest
  rw [Option.some.inj he] at htoken
  cases htoken

theorem reads_failure (error : Token → ParseError) (h : ∀ t, (error t).token? = some t) :
    c.Reads (ofFailure (c.blame error)) := reads_error (.refl c) (blames h)

theorem reads_rule {α : Type} {n : Nat} {P : α → Cursor → Prop} {outcome : Parsed α n}
    (answer : α → Answer) (ha : ∀ a, (answer a).error? = none)
    (h : outcome.Sound (fun _ => True) P c) : c.Reads (ofRule answer outcome) := by
  have hnames : c.Names fun _ => True := fun _ _ _ => trivial
  cases outcome with
  | ok step => exact reads_answer (h.ok hnames step rfl).1 (ha _)
  | error failure =>
    obtain ⟨hr, hb⟩ := h.error hnames failure rfl
    exact reads_error hr hb

theorem Bound.reads_advance (h : Bound ahead last beyond c) : c.Reads (ofMove c.advance) := by
  have hnext := h.next_readTo
  obtain ⟨t, rest, rfl⟩ := List.exists_cons_of_ne_nil h.ne_nil
  exact reads_answer hnext rfl

theorem Bound.reads (h : Bound ahead last beyond c) (call : Call) : c.Reads (c.call call) := by
  have hrules := Grammar.soundBelow Grammar.builds_any (16 * c.length + 13)
  cases call with
  | next => exact reads_answer h.next_readTo rfl
  | advance => exact h.reads_advance
  | current =>
    obtain ⟨t, rest, rfl⟩ := List.exists_cons_of_ne_nil h.ne_nil
    exact reads_answer (.refl _) rfl
  | peek | isAtEnd | isAt kinds | peeks kind => exact reads_answer (.refl c) rfl
  | expect kind expectation =>
    unfold Cursor.call expect
    dsimp only
    split
    · exact h.reads_advance
    · exact reads_failure (.unexpectedToken · expectation) fun _ => rfl
  | identifier => exact reads_rule _ (fun _ => rfl) (Grammar.take_sound rfl _ c)
  | unexpected expectation => exact reads_failure (.unexpectedToken · expectation) fun _ => rfl
  | invalid reason => exact reads_failure (.invalidSyntax · reason) fun _ => rfl
  | unsupported feature => exact reads_failure (.unsupported · feature) fun _ => rfl
  | statement =>
    exact reads_rule (.queries [·]) (fun _ => rfl) (Grammar.statement_sound Grammar.builds_any c)
  | single =>
    exact reads_rule (.queries [·]) (fun _ => rfl) (Grammar.single_sound Grammar.builds_any c)
  | script => exact reads_rule .queries (fun _ => rfl) (Grammar.script_sound c)
  | select => exact reads_rule (.queries [·]) (fun _ => rfl) (hrules.select c (by omega))
  | expression =>
    exact reads_rule (.exprs [·]) (fun _ => rfl) (Grammar.expression_sound Grammar.builds_any c)
  | expressions => exact reads_rule .exprs (fun _ => rfl) (hrules.expressions c (by omega))
  | columnRef => exact reads_rule .column (fun _ => rfl) (Grammar.columnRef_sound c)

/-- A look reads nothing. -/
theorem after_look {call : Call} (hc : call.looks = true) : c.after call = c := by
  cases call <;> first | rfl | cases hc

/-- Where one token is asked for, it is read or the call fails at that token. -/
theorem after_cases (c : Cursor) {call : Call} (hc : call.readsToken = true) :
    (c.call call).1.error? = none ∧ c.length ≤ (c.after call).length + 1 ∨ c.after call = c := by
  have hadvance : (ofMove c.advance).1.error? = none ∧ c.length ≤ (ofMove c.advance).2.length + 1 ∨
      (ofMove c.advance).2 = c := by
    cases c with
    | nil => exact .inr rfl
    | cons t rest => exact .inl ⟨rfl, length_le_next _⟩
  cases call with
  | next => exact .inl ⟨rfl, length_le_next c⟩
  | advance => exact hadvance
  | expect kind expectation =>
    unfold after Cursor.call expect
    dsimp only
    split
    · exact hadvance
    · exact .inr rfl
  | identifier =>
    unfold after Cursor.call identifier take
    dsimp only
    split
    · next step ha =>
      have hlength : c.length = step.rest.length + 1 :=
        congrArg List.length (accept?_eq_some ha).2
      exact .inl ⟨rfl, Nat.le_of_eq hlength⟩
    · exact .inr rfl
  | _ => cases hc

/-! ## All calls -/

/-- How many tokens have been passed. -/
def passed (tokens : List Token) (c : Cursor) : Nat := (ofTokens tokens).length - c.length

/-- How a call moves a cursor along a walk. -/
structure Walks (tokens : List Token) (c : Cursor) (call : Call) : Prop where
  forward : passed tokens c ≤ passed tokens (c.after call)
  step : call.readsToken = true → passed tokens (c.after call) ≤ passed tokens c + 1
  /-- At the end token, whatever is asked. -/
  stays : passed tokens c + 1 = (walk tokens).length → c.after call = c
  looks : call.looks = true → c.after call = c
  /-- A token that is asked for and is not there. -/
  fails : call.readsToken = true → (c.call call).1.error?.isSome → c.after call = c
  answer : (c.call call).1.error? ≠ some .endOfInput

/-- The cursor has come to some place of the walk. -/
structure On (tokens before ahead : List Token) (last : Token) (beyond c : Cursor) : Prop where
  walk : walk tokens = before ++ (ahead ++ [last])
  start : ofTokens tokens = before ++ c
  bound : Bound ahead last beyond c

variable {tokens before : List Token}

theorem On.passed_eq (h : On tokens before ahead last beyond c) :
    passed tokens c = before.length := by
  rw [passed, h.start, List.length_append, Nat.add_sub_cancel]

theorem On.after (h : On tokens before ahead last beyond c) (call : Call) :
    ∃ read left, ahead = read ++ left ∧
      On tokens (before ++ read) left last beyond (c.after call) := by
  obtain ⟨read, left, rfl, hafter⟩ := h.bound.readTo (h.bound.reads call).readTo
  have hread : c = read ++ c.after call := by
    rw [show c.after call = _ from hafter.eq, ← List.append_assoc]
    exact h.bound.eq
  refine ⟨read, left, rfl, ?_, ?_, hafter⟩
  · rw [h.walk]
    simp only [List.append_assoc]
  · rw [List.append_assoc, ← hread]
    exact h.start

theorem On.afterAll (h : On tokens before ahead last beyond c) (calls : List Call) :
    ∃ before ahead, On tokens before ahead last beyond (c.afterAll calls) := by
  induction calls generalizing before ahead c with
  | nil => exact ⟨before, ahead, h⟩
  | cons call rest ih =>
    obtain ⟨_, _, _, hnext⟩ := h.after call
    exact ih hnext

theorem On.walks (h : On tokens before ahead last beyond c) (call : Call) :
    Walks tokens c call := by
  obtain ⟨read, left, rfl, hafter⟩ := h.after call
  have hpassed := h.passed_eq
  have hthen := hafter.passed_eq
  rw [List.length_append] at hthen
  have hlength : c.length = read.length + (c.after call).length := by
    have hsame := congrArg List.length (h.start.symm.trans hafter.start)
    simp only [List.length_append] at hsame
    omega
  refine ⟨by omega, fun hc => ?_, fun hend => ?_, after_look, fun hc hfails => ?_, ?_⟩
  · rcases after_cases c hc with ⟨-, hle⟩ | hsame
    · omega
    · rw [hsame]
      exact Nat.le_succ _
  · -- nothing is left in front of the end token
    rw [hpassed, h.walk] at hend
    simp only [List.length_append, List.length_singleton] at hend
    obtain rfl := List.eq_nil_of_length_eq_zero (l := read) (by omega)
    have hsame := h.start.symm.trans hafter.start
    rw [List.append_nil] at hsame
    exact (List.append_cancel_left hsame).symm
  · rcases after_cases c hc with ⟨hnone, -⟩ | hsame
    · rw [hnone] at hfails
      cases hfails
    · exact hsame
  · exact (h.bound.reads call).answer hafter.bound.ne_nil

/-- Whatever calls are made on a cursor, it stands at a token of the walk; it moves forward only,
one by one where tokens are read one by one, and not at all from the end token, by a look, or where
the token is not there that has been asked for. So the input never ends. -/
theorem walks_once (tokens : List Token) (calls : List Call) :
    let c := (ofTokens tokens).afterAll calls
    passed tokens c < (walk tokens).length ∧ c = (ofTokens tokens).drop (passed tokens c) ∧
      c.current? = (walk tokens)[passed tokens c]? ∧ ∀ call, Walks tokens c call := by
  obtain ⟨front, last, beyond, hwalk, hstart⟩ := ofTokens_walk tokens
  have hbegin : On tokens [] front last beyond (ofTokens tokens) := ⟨hwalk, rfl, hstart⟩
  obtain ⟨before, ahead, h⟩ := hbegin.afterAll calls
  dsimp only
  generalize (ofTokens tokens).afterAll calls = c at h ⊢
  rw [h.passed_eq]
  refine ⟨?_, ?_, ?_, h.walks⟩
  · simp [h.walk]
  · rw [h.start, List.drop_left]
  · have hhead : c.head? = (ahead ++ [last]).head? := by
      rw [h.bound.eq]
      cases ahead <;> rfl
    rw [current?, hhead, h.walk, List.getElem?_append_right (Nat.le_refl _), Nat.sub_self,
      List.head?_eq_getElem?]

end Cursor

end TableQuery
