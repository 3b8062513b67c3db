import TableQuery.Proofs.Query.Alongside
import TableQuery.Proofs.Query.Roundtrip

/-! # Scripts read statement by statement

What a statement is read as does not depend on what ends it, be it a semicolon with more tokens
behind it or the end of the input. So a script is read as its statements are one by one, and the
first one that cannot be read is the reason why the script cannot be, unless the statement only
lacks what would come next. -/

namespace TableQuery

/-- What has been read, or why nothing could be. -/
def Parsed.result {α : Type} {n : Nat} : Parsed α n → Except ParseError α
  | .ok step => .ok step.value
  | .error failure => .error failure.error

theorem Parsed.Yields.result {α : Type} {n : Nat} {outcome : Parsed α n} {a : α} {rest : Cursor}
    (h : outcome.Yields a rest) : outcome.result = .ok a := by
  obtain ⟨_, rfl⟩ := h
  rfl

/-! ## Trees that are alike in every respect -/

theorem eq_of_rel {α : Type} {R : α → α → Prop} {x y : Option α} (h : Option.Rel R x y)
    (hr : ∀ a b, R a b → a = b) : x = y := by
  cases h with
  | none => rfl
  | some h => exact congrArg some (hr _ _ h)

theorem eq_of_forall₂ {α : Type} {R : α → α → Prop} {l l' : List α} (h : List.Forall₂ R l l')
    (hr : ∀ a b, R a b → a = b) : l = l' := by
  have heq := h.imp hr
  rwa [List.forall₂_eq_eq_eq] at heq

section

variable {ref ref' : ColumnRef} {table table' : TableRef}

theorem ColumnRef.Like.eq (h : ref.Like Eq ref') : ref = ref' := by
  cases ref
  cases ref'
  simpa using ⟨h.pos, h.table, h.name⟩

theorem TableRef.Like.eq (h : table.Like Eq Eq table') : table = table' := by
  obtain ⟨pos, source, label⟩ := table
  obtain ⟨pos', source', label'⟩ := table'
  obtain ⟨hpos, hsource, hlabel⟩ := h
  cases hpos
  cases hlabel
  cases hsource with
  | table name => rfl
  | subquery hq =>
    cases hq
    rfl

theorem Join.Like.eq {join join' : Join} (h : join.Like Eq Eq Eq join') : join = join' := by
  cases join
  cases join'
  simpa using ⟨h.pos, h.kind, h.table.eq, eq_of_rel h.condition fun _ _ => id⟩

theorem Select.Like.eq {query query' : Select} (h : query.Like Eq Eq Eq query') :
    query = query' := by
  have hcolumns := eq_of_forall₂ h.columns fun a b (hab : a.Like Eq b) => by
    cases a
    cases b
    simpa using ⟨hab.expr, hab.label⟩
  have hkeys := eq_of_forall₂ h.orderBy fun a b (hab : a.Like Eq b) => by
    cases a
    cases b
    simpa using ⟨hab.column.eq, hab.direction⟩
  have hsource := eq_of_rel h.source fun _ _ => TableRef.Like.eq
  have hjoins := eq_of_forall₂ h.joins fun _ _ => Join.Like.eq
  have hgroup := eq_of_forall₂ h.groupBy fun _ _ => id
  have hfilter := eq_of_rel h.filter fun _ _ => id
  have hhaving := eq_of_rel h.having fun _ _ => id
  have hlimit := eq_of_rel h.limit fun _ _ => id
  have hoffset := eq_of_rel h.offset fun _ _ => id
  cases query
  cases query'
  simpa using ⟨h.pos, h.star, hcolumns, hsource, hjoins, hfilter, hgroup, hhaving, hkeys, hlimit,
    hoffset⟩

end

theorem likeness_eq : Likeness Eq Eq Eq where
  literal v hp := by rw [hp]
  column h := by rw [h.eq]
  binary op hp hl hr := by rw [hp, hl, hr]
  logical op hp hl hr := by rw [hp, hl, hr]
  not hp he := by rw [hp, he]
  negate hp he := by rw [hp, he]
  between hp hv hl hh := by rw [hp, hv, hl, hh]
  member hp hv hi := by rw [hp, hv, eq_of_forall₂ hi fun _ _ => id]
  like ignoreCase hp hv he := by rw [hp, hv, he]
  isNull hp he := by rw [hp, he]
  case hp hw ht ho := by
    rw [hp, eq_of_forall₂ hw fun _ _ => id, eq_of_forall₂ ht fun _ _ => id,
      eq_of_rel ho fun _ _ => id]
  call star hp hc ha := by rw [hp, hc, eq_of_forall₂ ha fun _ _ => id]
  group hp he := by rw [hp, he]
  existence hp hq := by rw [hp, hq]
  subquery hq := by rw [hq]
  select h := h.eq

/-! ## Other ends -/

/-- The same tokens, none of which ends a statement, stand in front of different ends. -/
def Cursor.InFront (ends ends' c c' : Cursor) : Prop :=
  ∃ tokens : List Token, (∀ t ∈ tokens, t.kind.isStop = false) ∧ c = tokens ++ ends ∧
    c' = tokens ++ ends'

theorem Cursor.tracks_inFront {t t' : Token} (h : t.kind.isStop = true)
    (h' : t'.kind.isStop = true) (rest rest' : Cursor) :
    Tracks Eq (InFront (t :: rest) (t' :: rest')) := by
  rintro _ _ ⟨tokens, htokens, rfl, rfl⟩
  cases tokens with
  | nil => exact .stop h h'
  | cons u more =>
    have hmore := (List.forall_mem_cons.mp htokens).2
    exact .like ⟨rfl, rfl, rfl, rfl⟩ ⟨more, hmore, rfl, rfl⟩

namespace Grammar

open Parsed

variable {tokens : List Token} {last stop : Token} {rest c c₁ c₂ : Cursor} {query : Select}
  {e : ParseError}

theorem isAtEnd_last (hl : last.kind = .endOfText) : Cursor.isAtEnd [last] = true := by
  simp [Cursor.isAtEnd, Cursor.current?, Token.isEnd, hl]

theorem isAtEnd_cons (h : stop.kind ≠ .endOfText) : Cursor.isAtEnd (stop :: rest) = false := by
  simp [Cursor.isAtEnd, Cursor.current?, Token.isEnd, h]

/-- Behind a query that something other than an end follows, a semicolon is missed. -/
theorem statement_unclosed {n : Token} {h : (n :: rest).length < c.length}
    (hq : select c = .ok ⟨query, n :: rest, h⟩) (hn : n.kind.isStop = false) :
    statement c =
      .error (Cursor.unexpected (n :: rest) "Expected ';' at the end of a statement") := by
  have hend : Cursor.isAtEnd (n :: rest) = false :=
    isAtEnd_cons (TokenKind.ne_of_isStop rfl hn).symm
  have hsemicolon : Cursor.accept? (n :: rest) .semicolon = none :=
    if_neg (TokenKind.ne_of_isStop rfl hn).symm
  simp [statement, hq, Bind.bind, Except.bind, hend, Cursor.take, hsemicolon]

/-- Where nothing is left to read, the end is blamed. -/
theorem single_end (hl : last.kind = .endOfText) :
    ∃ e, (single [last]).result = .error e ∧ e.token? = some last := by
  refine ⟨.unexpectedToken last "Expected 'select' at the start of a query", ?_, rfl⟩
  have hselect : select [last] =
      .error (Cursor.unexpected [last] "Expected 'select' at the start of a query") := by
    simp [select, Cursor.take, Cursor.accept?, hl, Bind.bind, Except.bind]
  rw [single, statement, hselect]
  rfl

/-- A query in front of an end token is all there is to read. -/
theorem single_of_select {h : List.length [last] < c.length} (hl : last.kind = .endOfText)
    (hq : select c = .ok ⟨query, [last], h⟩) : single c = .ok ⟨query, [last], h⟩ := by
  simp [single, statement, hq, Bind.bind, Except.bind, isAtEnd_last hl, Pure.pure, Except.pure]

/-- A statement on its own comes to what it comes to in front of any other end: its query is read
there, or it fails as it does there, but for failures that blame the end. -/
theorem single_beside (hplain : ∀ t ∈ tokens, t.kind.isStop = false)
    (hl : last.kind = .endOfText) (hs : stop.kind.isStop = true) (rest : Cursor) :
    (∃ query, (single (tokens ++ [last])).result = .ok query ∧
        Yields (select (tokens ++ stop :: rest)) query (stop :: rest)) ∨
      ∃ e, (single (tokens ++ [last])).result = .error e ∧
        (e.token? = some last ∨ (statement (tokens ++ stop :: rest)).result = .error e) := by
  have hlast : last.kind.isStop = true := by rw [hl]; rfl
  have hbeside : Alongside (Cursor.InFront [last] (stop :: rest)) Eq (select (tokens ++ [last]))
      (select (tokens ++ stop :: rest)) :=
    query_alongside (Cursor.tracks_inFront hlast hs [] rest) likeness_eq ⟨tokens, hplain, rfl, rfl⟩
  generalize hx : select (tokens ++ [last]) = x at hbeside
  generalize hy : select (tokens ++ stop :: rest) = y at hbeside
  cases hbeside with
  | @ok query _ _ _ h h' hp hr =>
    obtain ⟨unread, hunread, rfl, rfl⟩ := hr
    cases hp
    cases unread with
    | nil => exact .inl ⟨query, by rw [single_of_select hl hx]; rfl, h', rfl⟩
    | cons n more =>
      -- both cursors are at one token, which should have been a semicolon
      have hn := (List.forall_mem_cons.mp hunread).1
      refine .inr ⟨.unexpectedToken n "Expected ';' at the end of a statement", ?_, .inr ?_⟩
      · rw [single, statement_unclosed hx hn]
        rfl
      · rw [statement_unclosed hy hn]
        rfl
  | @error error _ _ hf hr =>
    obtain ⟨unread, hunread, rfl, rfl⟩ := hr
    cases unread with
    | nil =>
      refine .inr ⟨error last, ?_, .inl ?_⟩
      · rw [single, statement, hx]
        rfl
      · cases hf <;> rfl
    | cons n more =>
      refine .inr ⟨error n, ?_, .inr ?_⟩
      · rw [single, statement, hx]
        rfl
      · rw [statement, hy]
        rfl

theorem statement_closed {semicolon : Token} (hs : semicolon.kind = .semicolon)
    (h : Yields (select c) query (semicolon :: rest)) : Yields (statement c) query rest := by
  have hend : Cursor.isAtEnd (semicolon :: rest) = false := isAtEnd_cons (by rw [hs]; decide)
  unfold statement
  refine h.bind fun _ => ?_
  simp only [hend, Bool.false_eq_true, if_false]
  exact (Cursor.take_yields _ _ hs).bind fun _ => yields_ok _

theorem statement_last (hl : last.kind = .endOfText) (h : Yields (select c) query [last]) :
    Yields (statement c) query [last] := by
  unfold statement
  refine h.bind fun _ => ?_
  simp only [isAtEnd_last hl, if_true]
  exact yields_ok _

theorem script_last (hl : last.kind = .endOfText) : Yields (script [last]) [] [last] := by
  unfold script
  rw [if_pos (isAtEnd_last hl)]
  exact yields_ok _

theorem script_cons {queries : List Select} (hc : c.isAtEnd = false)
    (h : Yields (statement c) query c₁) (hr : Yields (script c₁) queries c₂) :
    Yields (script c) (query :: queries) c₂ := by
  unfold script
  simp only [hc, Bool.false_eq_true, if_false]
  exact h.bind fun _ => hr.bind fun _ => yields_ok _

theorem script_error_first (hc : c.isAtEnd = false) (h : (statement c).result = .error e) :
    (script c).result = .error e := by
  unfold script
  simp only [hc, Bool.false_eq_true, if_false]
  generalize statement c = outcome at h
  cases outcome with
  | ok step => cases h
  | error failure =>
    cases h
    rfl

theorem script_error_later (hc : c.isAtEnd = false) (h : Yields (statement c) query c₁)
    (hr : (script c₁).result = .error e) : (script c).result = .error e := by
  obtain ⟨hlt, hs⟩ := h
  rw [script, hs]
  simp only [hc, Bool.false_eq_true, if_false, Bind.bind, Except.bind]
  generalize script c₁ = outcome at hr
  cases outcome with
  | ok step => cases hr
  | error failure => exact hr

end Grammar

/-! ## Statements in a row -/

/-- The tokens of one statement, and the semicolon to put behind it. -/
structure Segment where
  tokens : List Token
  semicolon : Token
  plain : ∀ t ∈ tokens, t.kind ≠ .semicolon ∧ t.kind ≠ .comment ∧ t.kind ≠ .endOfText
  closes : semicolon.kind = .semicolon

namespace Segment

open Parsed Grammar

variable {segment : Segment} {last : Token} {query : Select} {e : ParseError}

/-- What the statement is read as on its own. -/
def alone (segment : Segment) : Except ParseError Select :=
  (single (Cursor.ofTokens segment.tokens)).result

/-- The statements with semicolons between them, and with one behind them if asked for. -/
def joined (final : Bool) : List Segment → List Token
  | [] => []
  | segment :: rest =>
    segment.tokens ++
      if rest.isEmpty && !final then [] else segment.semicolon :: joined final rest

theorem isStop_tokens (segment : Segment) : ∀ t ∈ segment.tokens, t.kind.isStop = false := by
  intro t ht
  obtain ⟨hsemicolon, -, hend⟩ := segment.plain t ht
  cases hk : t.kind <;> first | rfl | contradiction

theorem isRead_tokens (segment : Segment) : ∀ t ∈ segment.tokens, t.kind.isRead = true := by
  intro t ht
  obtain ⟨-, hcomment, hend⟩ := segment.plain t ht
  cases hk : t.kind <;> first | rfl | contradiction

theorem isRead_joined (final : Bool) (segments : List Segment) :
    ∀ t ∈ joined final segments, t.kind.isRead = true := by
  induction segments with
  | nil => exact List.forall_mem_nil _
  | cons segment rest ih =>
    refine List.forall_mem_append.mpr ⟨segment.isRead_tokens, ?_⟩
    split
    · exact List.forall_mem_nil _
    · exact List.forall_mem_cons.mpr ⟨by rw [segment.closes]; rfl, ih⟩

/-- A statement is not empty, whether it is read or fails before its end. -/
theorem joined_cons_isAtEnd (final : Bool) (rest : List Segment) (last : Token)
    (hne : segment.tokens ≠ []) :
    Cursor.isAtEnd (joined final (segment :: rest) ++ [last]) = false := by
  obtain ⟨t, more, ht⟩ := List.exists_cons_of_ne_nil hne
  have hmem : t ∈ segment.tokens := by rw [ht]; exact List.mem_cons_self
  rw [joined, ht, List.cons_append, List.cons_append]
  exact isAtEnd_cons (segment.plain t hmem).2.2

/-- What stands behind a statement in a row of them begins with its semicolon or is the end. -/
theorem joined_cons_eq (segment : Segment) (final : Bool) (rest : List Segment)
    (hl : last.kind = .endOfText) :
    ∃ stop others, stop.kind.isStop = true ∧
      joined final (segment :: rest) ++ [last] = segment.tokens ++ stop :: others ∧
      ∀ {query}, Yields (select (segment.tokens ++ stop :: others)) query (stop :: others) →
        Yields (statement (segment.tokens ++ stop :: others)) query
          (joined final rest ++ [last]) := by
  cases hc : rest.isEmpty && !final with
  | true =>
    obtain ⟨hrest, -⟩ := (Bool.and_eq_true _ _).mp hc
    cases List.isEmpty_iff.mp hrest
    refine ⟨last, [], by rw [hl]; rfl, ?_, statement_last hl⟩
    rw [joined, if_pos hc, List.append_nil]
  | false =>
    refine ⟨segment.semicolon, joined final rest ++ [last], by rw [segment.closes]; rfl, ?_,
      statement_closed segment.closes⟩
    rw [joined, if_neg (by simp [hc]), List.append_assoc, List.cons_append]

/-- A statement in a row of them is read as it is on its own, or fails the same way. -/
theorem statement_joined (segment : Segment) (final : Bool) (rest : List Segment)
    (hl : last.kind = .endOfText) :
    (∃ query, segment.alone = .ok query ∧
        Cursor.isAtEnd (joined final (segment :: rest) ++ [last]) = false ∧
        Yields (statement (joined final (segment :: rest) ++ [last])) query
          (joined final rest ++ [last])) ∨
      ∃ e, segment.alone = .error e ∧
        ((∃ t, e.token? = some t ∧ t.isEnd = true) ∨
          Cursor.isAtEnd (joined final (segment :: rest) ++ [last]) = false ∧
          (statement (joined final (segment :: rest) ++ [last])).result = .error e) := by
  obtain ⟨own, hown, hof⟩ := ofTokens_of_isRead segment.isRead_tokens
  obtain ⟨stop, others, hs, heq, hstatement⟩ := joined_cons_eq segment final rest hl
  have hend : own.isEnd = true := by simp [Token.isEnd, hown]
  unfold alone
  rw [hof]
  by_cases hempty : segment.tokens = []
  · obtain ⟨e, hsingle, he⟩ := single_end hown
    exact .inr ⟨e, by rw [hempty]; exact hsingle, .inl ⟨own, he, hend⟩⟩
  · have hstart := joined_cons_isAtEnd final rest last hempty
    rcases single_beside segment.isStop_tokens hown hs others with
      ⟨query, hsingle, hselect⟩ | ⟨e, hsingle, hfails⟩
    · refine .inl ⟨query, hsingle, hstart, ?_⟩
      rw [heq]
      exact hstatement hselect
    · rw [heq] at hstart ⊢
      exact .inr ⟨e, hsingle, hfails.imp (fun he => ⟨own, he, hend⟩) fun hfails => ⟨hstart, hfails⟩⟩

/-- A script whose statements can all be read is read as their queries. -/
theorem script_accepts (final : Bool) {segments : List Segment} {queries : List Select}
    (h : List.Forall₂ (fun segment query => segment.alone = .ok query) segments queries)
    (hl : last.kind = .endOfText) :
    Yields (script (joined final segments ++ [last])) queries [last] := by
  induction h with
  | nil => exact script_last hl
  | @cons segment query rest queries hq _ ih =>
    rcases statement_joined segment final rest hl with
      ⟨other, halone, hend, hstatement⟩ | ⟨e, halone, _⟩
    · rw [halone] at hq
      cases hq
      exact script_cons hend hstatement ih
    · rw [halone] at hq
      cases hq

/-- A script fails where its first statement does that cannot be read. -/
theorem script_rejects (final : Bool) {before after : List Segment} {bad : Segment}
    (hbefore : ∀ segment ∈ before, ∃ query, segment.alone = .ok query)
    (hbad : bad.alone = .error e) (he : ∀ t, e.token? = some t → t.isEnd = false)
    (hl : last.kind = .endOfText) :
    (script (joined final (before ++ bad :: after) ++ [last])).result = .error e := by
  induction before with
  | nil =>
    rcases statement_joined bad final after hl with ⟨query, halone, _⟩ | ⟨other, halone, hfails⟩
    · rw [halone] at hbad
      cases hbad
    · rw [halone] at hbad
      cases hbad
      rcases hfails with ⟨t, ht, htrue⟩ | ⟨hend, hstatement⟩
      · rw [he t ht] at htrue
        cases htrue
      · exact script_error_first hend hstatement
  | cons segment before ih =>
    obtain ⟨⟨query, hq⟩, hbefore⟩ := List.forall_mem_cons.mp hbefore
    rcases statement_joined segment final (before ++ bad :: after) hl with
      ⟨other, _, hend, hstatement⟩ | ⟨other, halone, _⟩
    · exact script_error_later hend hstatement (ih hbefore)
    · rw [halone] at hq
      cases hq

end Segment

end TableQuery
