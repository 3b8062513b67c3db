import TableQuery.Query.Statement

/-! # What a rule reads

A rule reads tokens from the front and never a comment or an end token, whether it succeeds or
fails; when it fails, it blames the token that it has stopped at. So there is always a token to
blame where the tokens are closed by an end token, as those of every text are. -/

namespace TableQuery

/-! ## Reading -/

/-- The kinds of tokens that rules read. -/
def TokenKind.isRead : TokenKind → Bool
  | .comment | .endOfText => false
  | _ => true

theorem Token.isEnd_of_isRead {t : Token} (h : t.kind.isRead = true) : t.isEnd = false := by
  refine beq_false_of_ne fun hk => ?_
  rw [hk] at h
  cases h

namespace Cursor

/-- Tokens have been read from the front of a cursor, all of them of kinds that rules read. -/
def ReadTo (c rest : Cursor) : Prop :=
  ∃ read : List Token, c = read ++ rest ∧ ∀ t ∈ read, t.kind.isRead = true

/-- Every identifier among the tokens has the property. -/
def Names (N : String → Prop) (c : Cursor) : Prop := ∀ t ∈ c, t.kind = .identifier → N t.lexeme

/-- The last token is an end token. -/
def Closed (c : Cursor) : Prop := ∃ before last, c = before ++ [last] ∧ last.isEnd = true

theorem ReadTo.refl (c : Cursor) : c.ReadTo c := ⟨[], rfl, List.forall_mem_nil _⟩

theorem ReadTo.trans {a b c : Cursor} (h : a.ReadTo b) (h' : b.ReadTo c) : a.ReadTo c := by
  obtain ⟨read, rfl, hread⟩ := h
  obtain ⟨more, rfl, hmore⟩ := h'
  refine ⟨read ++ more, by simp, fun t ht => ?_⟩
  rcases List.mem_append.mp ht with ht | ht
  · exact hread t ht
  · exact hmore t ht

theorem ReadTo.cons {t : Token} {rest : Cursor} (h : t.kind.isRead = true) :
    ReadTo (t :: rest) rest := ⟨[t], rfl, by simpa using h⟩

theorem ReadTo.names {N : String → Prop} {c rest : Cursor} (h : c.ReadTo rest) (hc : c.Names N) :
    rest.Names N := by
  obtain ⟨read, rfl, -⟩ := h
  exact fun t ht => hc t (List.mem_append_right _ ht)

/-- Behind the tokens that have been read there is still an end token. -/
theorem ReadTo.closed {c rest : Cursor} (h : c.ReadTo rest) (hc : c.Closed) : rest.Closed := by
  obtain ⟨read, rfl, hread⟩ := h
  obtain ⟨before, last, he, hlast⟩ := hc
  rcases List.eq_nil_or_concat rest with rfl | ⟨front, final, rfl⟩
  · rw [List.append_nil] at he
    have hm : last ∈ read := he ▸ List.mem_append_right _ (List.mem_singleton.mpr rfl)
    rw [Token.isEnd_of_isRead (hread last hm)] at hlast
    cases hlast
  · rw [List.concat_eq_append] at he ⊢
    rw [← List.append_assoc] at he
    obtain ⟨-, hf⟩ := List.append_inj' he rfl
    cases hf
    exact ⟨front, last, rfl, hlast⟩

theorem Closed.ne_nil {c : Cursor} (h : c.Closed) : c ≠ [] := by
  obtain ⟨before, last, rfl, _⟩ := h
  simp

theorem closed_ofTokens (tokens : List Token) : (ofTokens tokens).Closed := by
  unfold ofTokens
  dsimp only
  split
  · exact ⟨[], _, rfl, rfl⟩
  · next last hl =>
    split
    · next he =>
      obtain ⟨before, hb⟩ := List.getLast?_eq_some_iff.mp hl
      exact ⟨before, last, hb, he⟩
    · exact ⟨_, _, rfl, rfl⟩

theorem names_ofTokens {N : String → Prop} {tokens : List Token} (h : Names N tokens) :
    (ofTokens tokens).Names N := by
  have hkept : Names N (tokens.filter (·.kind != .comment)) :=
    fun t ht => h t (List.mem_filter.mp ht).1
  have hend : ∀ pos : Position, Names N [⟨.endOfText, "", none, pos⟩] := by
    intro pos t ht hk
    cases List.mem_singleton.mp ht
    cases hk
  unfold ofTokens
  dsimp only
  split
  · exact hend .start
  · split
    · exact hkept
    · exact List.forall_mem_append.mpr ⟨hkept, hend _⟩

/-- What is accepted is the token at hand. -/
theorem accept?_eq_some {c rest : Cursor} {kind : TokenKind} {t : Token}
    {h : rest.length < c.length} (ha : c.accept? kind = some ⟨t, rest, h⟩) :
    t.kind = kind ∧ c = t :: rest := by
  cases c with
  | nil => cases ha
  | cons first others =>
    unfold accept? at ha
    dsimp only at ha
    split at ha
    · next hk =>
      cases ha
      exact ⟨hk, rfl⟩
    · cases ha

theorem accept?_readTo {c rest : Cursor} {kind : TokenKind} {t : Token}
    {h : rest.length < c.length} (ha : c.accept? kind = some ⟨t, rest, h⟩)
    (hk : kind.isRead = true) : c.ReadTo rest := by
  obtain ⟨ht, hc⟩ := accept?_eq_some ha
  exact ⟨[t], hc, by simpa [ht] using hk⟩

end Cursor

/-! ## Blaming -/

/-- The failure blames the token at hand; only where there is none, the input has ended. -/
structure ParseFailure.Blames (failure : ParseFailure) : Prop where
  token : ∀ t, failure.rest.head? = some t → failure.error.token? = some t
  none : failure.rest = [] → failure.error = .endOfInput

theorem Cursor.blames_nil : ParseFailure.Blames ⟨.endOfInput, []⟩ := by
  refine ⟨fun t ht => ?_, fun _ => rfl⟩
  cases ht

theorem Cursor.blames {c : Cursor} {error : Token → ParseError}
    (h : ∀ t, (error t).token? = some t) : (c.blame error).Blames := by
  cases c with
  | nil => exact blames_nil
  | cons t rest =>
    refine ⟨fun other ho => ?_, fun hnil => ?_⟩
    · cases ho
      exact h t
    · cases hnil

/-- The end of the input is never blamed where there is a token. -/
theorem ParseFailure.Blames.token?_isSome {failure : ParseFailure} (h : failure.Blames)
    (hr : failure.rest ≠ []) : failure.error.token?.isSome := by
  obtain ⟨t, rest, ht⟩ := List.exists_cons_of_ne_nil hr
  rw [h.token t (by rw [ht]; rfl)]
  rfl

/-! ## Outcomes -/

/-- From the cursor a rule reads up to another one, and what it builds has the property there, or it
blames the token it stops at. The names among the tokens are of one sort. -/
structure Parsed.Sound {α : Type} {n : Nat} (N : String → Prop) (P : α → Cursor → Prop) (c : Cursor)
    (outcome : Parsed α n) : Prop where
  ok : c.Names N → ∀ step, outcome = .ok step → c.ReadTo step.rest ∧ P step.value step.rest
  error : c.Names N → ∀ failure, outcome = .error failure → c.ReadTo failure.rest ∧ failure.Blames

namespace Parsed

variable {α β : Type} {m n : Nat} {N : String → Prop} {P : α → Cursor → Prop}
  {Q : β → Cursor → Prop} {c : Cursor}

theorem sound_ok {a : α} {rest : Cursor} {h : rest.length < n} (hr : c.ReadTo rest)
    (hp : P a rest) : Sound N P c (.ok ⟨a, rest, h⟩) := by
  refine ⟨fun _ other ho => ?_, fun _ failure hf => ?_⟩
  · cases ho
    exact ⟨hr, hp⟩
  · cases hf

theorem sound_error {failure : ParseFailure} (hr : c.ReadTo failure.rest) (hb : failure.Blames) :
    Sound N P c (.error failure : Parsed α n) := by
  refine ⟨fun _ step hs => ?_, fun _ other ho => ?_⟩
  · cases hs
  · cases ho
    exact ⟨hr, hb⟩

/-- The names of the tokens may be used. -/
theorem sound_of_names {outcome : Parsed α n} (h : c.Names N → Sound N P c outcome) :
    Sound N P c outcome := ⟨fun hc => (h hc).ok hc, fun hc => (h hc).error hc⟩

/-- A rule that goes on from where something else has read to. -/
theorem Sound.behind {outcome : Parsed α n} {rest : Cursor} (hr : c.ReadTo rest)
    (h : Sound N P rest outcome) : Sound N P c outcome := by
  refine ⟨fun hc step hs => ?_, fun hc failure hf => ?_⟩
  · obtain ⟨hread, hp⟩ := h.ok (hr.names hc) step hs
    exact ⟨hr.trans hread, hp⟩
  · obtain ⟨hread, hb⟩ := h.error (hr.names hc) failure hf
    exact ⟨hr.trans hread, hb⟩

/-- A rule behind another one. -/
theorem Sound.bind {outcome : Parsed α n} {next : Step α n → Parsed β m} (h : Sound N P c outcome)
    (hn : ∀ a rest (hr : rest.length < n), P a rest → Sound N Q rest (next ⟨a, rest, hr⟩)) :
    Sound N Q c (outcome >>= next) := by
  refine sound_of_names fun hc => ?_
  cases outcome with
  | error failure =>
    obtain ⟨hr, hb⟩ := h.error hc failure rfl
    exact sound_error hr hb
  | ok step =>
    obtain ⟨hr, hp⟩ := h.ok hc step rfl
    exact (hn step.value step.rest step.shorter hp).behind hr

theorem Sound.mono {outcome : Parsed α n} {R : α → Cursor → Prop} (h : Sound N P c outcome)
    (hr : ∀ a rest, P a rest → R a rest) : Sound N R c outcome :=
  ⟨fun hc step hs => ⟨(h.ok hc step hs).1, hr _ _ (h.ok hc step hs).2⟩, h.error⟩

/-- A rule that fails where it stands. -/
theorem sound_blame {error : Token → ParseError} (h : ∀ t, (error t).token? = some t) :
    Sound N P c (.error (c.blame error) : Parsed α n) := sound_error (.refl c) (Cursor.blames h)

theorem sound_unexpected (expectation : String) :
    Sound N P c (.error (c.unexpected expectation) : Parsed α n) := sound_blame fun _ => rfl

/-- A rule that goes on behind a token it asks for. -/
theorem sound_take {kind : TokenKind} {expectation : String}
    {next : Step Token c.length → Parsed α n} (hk : kind.isRead = true)
    (hn : ∀ t rest (hr : rest.length < c.length), Sound N P rest (next ⟨t, rest, hr⟩)) :
    Sound N P c (c.take kind expectation >>= next) := by
  unfold Cursor.take
  split
  · next step ha =>
    exact (hn step.value step.rest step.shorter).behind (Cursor.accept?_readTo ha hk)
  · exact sound_unexpected expectation

/-- A rule that goes on behind a name it asks for. -/
theorem sound_takeName {expectation : String} {next : Step Token c.length → Parsed α n}
    (hn : ∀ t rest (hr : rest.length < c.length), N t.lexeme →
      Sound N P rest (next ⟨t, rest, hr⟩)) :
    Sound N P c (c.take .identifier expectation >>= next) := by
  unfold Cursor.take
  split
  · next step ha =>
    obtain ⟨t, rest, hr⟩ := step
    obtain ⟨ht, rfl⟩ := Cursor.accept?_eq_some ha
    refine sound_of_names fun hc => ?_
    have hname : N t.lexeme := hc t List.mem_cons_self ht
    exact (hn t rest hr hname).behind (Cursor.accept?_readTo ha (by decide))
  · exact sound_unexpected expectation

/-- A rule that goes on behind a token it has found. -/
theorem sound_accept {kind : TokenKind} {outcome : Parsed α n} {t : Token} {rest : Cursor}
    {hr : rest.length < c.length} (ha : c.accept? kind = some ⟨t, rest, hr⟩)
    (hk : kind.isRead = true) (h : Sound N P rest outcome) : Sound N P c outcome :=
  h.behind (Cursor.accept?_readTo ha hk)

/-- A rule that goes on behind the token at hand. -/
theorem sound_cons {kind : TokenKind} {outcome : Parsed α n} {t : Token} {rest : Cursor}
    (ht : t.kind = kind) (hk : kind.isRead = true) (h : Sound N P rest outcome) :
    Sound N P (t :: rest) outcome :=
  h.behind (.cons (ht ▸ hk))

end Parsed

end TableQuery
