import TableQuery.Proofs.Query.Alongside
import TableQuery.Proofs.Query.Written
import TableQuery.Proofs.Evaluation.Loop

/-! # Layout of texts

Two texts with the same tokens, blanks and comments and with them the positions aside, are read as
the same tree, positions aside, or fail for the same reason at tokens that differ in their positions
only. -/

namespace TableQuery

/-! ## Tokens and errors without positions -/

/-- The token at one and the same place, wherever it stands. -/
def Token.unplaced (t : Token) : Token := { t with pos := .start }

def ScanError.unplaced : ScanError → ScanError
  | unterminatedString _ => unterminatedString .start
  | unexpectedCharacter c _ => unexpectedCharacter c .start
  | invalidNumber lexeme _ => invalidNumber lexeme .start

def ParseError.unplaced : ParseError → ParseError
  | scan error => scan error.unplaced
  | unexpectedToken token expectation => unexpectedToken token.unplaced expectation
  | invalidSyntax token reason => invalidSyntax token.unplaced reason
  | unsupported token feature => unsupported token.unplaced feature
  | endOfInput => endOfInput

/-- Tokens as the parser sees them, positions aside: comments are left out. -/
def Token.words (tokens : List Token) : List Token :=
  (tokens.filter (·.kind != .comment)).map Token.unplaced

/-- The words of a text, or the fault in it. -/
def Token.wordsOf (text : String) : Except ScanError (List Token) :=
  ((scan? text).map words).mapError ScanError.unplaced

/-- Positions of any kind are related. -/
def Position.Any (_ _ : Position) : Prop := True

theorem Token.like_of_unplaced {t t' : Token} (h : t.unplaced = t'.unplaced) :
    t.Like Position.Any t' := by
  obtain ⟨kind, lexeme, literal, pos⟩ := t
  obtain ⟨kind', lexeme', literal', pos'⟩ := t'
  cases h
  exact ⟨rfl, rfl, rfl, trivial⟩

theorem Token.Like.unplaced {R : Position → Position → Prop} {t t' : Token} (h : t.Like R t') :
    t.unplaced = t'.unplaced := by
  simp only [Token.unplaced, h.kind, h.lexeme, h.literal]

/-! ## Trees without positions -/

theorem map_eq_of_rel {α β : Type} {R : α → α → Prop} {f : α → β} {x y : Option α}
    (h : Option.Rel R x y) (hf : ∀ a b, R a b → f a = f b) : x.map f = y.map f := by
  cases h with
  | none => rfl
  | some h => exact congrArg some (hf _ _ h)

theorem ColumnRef.Like.unplaced {R : Position → Position → Prop} {ref ref' : ColumnRef}
    (h : ref.Like R ref') : ref.unplaced = ref'.unplaced := by
  simp only [ColumnRef.unplaced, h.table, h.name]

theorem TableRef.Like.unplaced {R : Position → Position → Prop} {ref ref' : TableRef}
    (h : ref.Like R (fun query query' => query.unplaced = query'.unplaced) ref') :
    ref.unplaced = ref'.unplaced := by
  obtain ⟨pos, source, label⟩ := ref
  obtain ⟨pos', source', label'⟩ := ref'
  obtain ⟨-, hsource, hlabel⟩ := h
  cases hlabel
  cases hsource with
  | table name => rfl
  | subquery hq => simp only [TableRef.unplaced, hq]

theorem unplacedJoins_of_like {R : Position → Position → Prop} {joins joins' : List Join}
    (h : List.Forall₂ (Join.Like R (fun e e' => e.unplaced = e'.unplaced)
      fun query query' => query.unplaced = query'.unplaced) joins joins') :
    unplacedJoins joins = unplacedJoins joins' := by
  induction h with
  | nil => rfl
  | @cons join join' rest rest' hj _ ih =>
    cases join
    cases join'
    obtain ⟨-, rfl, htable, hcondition⟩ := hj
    have hcondition := map_eq_of_rel hcondition fun _ _ => id
    simp only [unplacedJoins, unplacedOption_eq, htable.unplaced, hcondition, ih]

/-- Trees with nodes that differ in their positions only are the same without them. -/
theorem likeness_unplaced :
    Likeness Position.Any (fun e e' => e.unplaced = e'.unplaced)
      fun query query' => query.unplaced = query'.unplaced where
  literal v _ := rfl
  column h := by simp only [Expr.unplaced, h.unplaced]
  binary op _ hl hr := by simp only [Expr.unplaced, hl, hr]
  logical op _ hl hr := by simp only [Expr.unplaced, hl, hr]
  not _ he := by simp only [Expr.unplaced, he]
  negate _ he := by simp only [Expr.unplaced, he]
  between _ hv hl hh := by simp only [Expr.unplaced, hv, hl, hh]
  member _ hv hi := by
    simp only [Expr.unplaced, hv, unplacedEach_eq, map_eq_map_of_forall₂ hi]
  like ignoreCase _ hv hp := by simp only [Expr.unplaced, hv, hp]
  isNull _ he := by simp only [Expr.unplaced, he]
  case _ hw ht ho := by
    simp only [Expr.unplaced, unplacedEach_eq, unplacedOption_eq, map_eq_map_of_forall₂ hw,
      map_eq_map_of_forall₂ ht, map_eq_of_rel ho fun _ _ => id]
  call star _ hc ha := by
    simp only [Expr.unplaced, hc, unplacedEach_eq, map_eq_map_of_forall₂ ha]
  group _ he := by simp only [Expr.unplaced, he]
  existence _ hq := by simp only [Expr.unplaced, hq]
  subquery hq := by simp only [Expr.unplaced, hq]
  select {query query'} h := by
    have hcolumns : query.columns.map (·.unplaced) = query'.columns.map (·.unplaced) :=
      map_eq_map_of_forall₂ <| h.columns.imp fun a b hab => by
        simp only [SelectColumn.unplaced, hab.expr, hab.label]
    have hkeys : query.orderBy.map (·.unplaced) = query'.orderBy.map (·.unplaced) :=
      map_eq_map_of_forall₂ <| h.orderBy.imp fun a b hab => by
        simp only [OrderKey.unplaced, hab.column.unplaced, hab.direction]
    have hsource := map_eq_of_rel h.source fun _ _ => TableRef.Like.unplaced
    have hfilter := map_eq_of_rel h.filter fun _ _ => id
    have hhaving := map_eq_of_rel h.having fun _ _ => id
    have hlimit := map_eq_of_rel h.limit fun _ _ => id
    have hoffset := map_eq_of_rel h.offset fun _ _ => id
    rw [Select.unplaced_eq, Select.unplaced_eq, h.star, hcolumns, hkeys, hsource,
      unplacedJoins_of_like h.joins, map_eq_map_of_forall₂ h.groupBy, hfilter, hhaving, hlimit,
      hoffset]

/-! ## Cursors -/

namespace Cursor

/-- The same tokens, wherever they stand. -/
abbrev Alike (c c' : Cursor) : Prop := List.Forall₂ (Token.Like Position.Any) c c'

variable {c c' : Cursor}

theorem tracks_alike : Tracks Position.Any Alike := by
  intro c c' h
  cases h with
  | nil => exact .empty
  | cons ht hr => exact .like ht hr

theorem Alike.isAtEnd (h : c.Alike c') : c.isAtEnd = c'.isAtEnd := by
  cases h with
  | nil => rfl
  | cons ht _ => simp [Cursor.isAtEnd, current?, Token.isEnd, ht.kind]

theorem Alike.getLast? {tokens tokens' : List Token} (h : Alike tokens tokens') :
    Option.Rel (Token.Like Position.Any) tokens.getLast? tokens'.getLast? := by
  have hreverse := List.rel_reverse h
  rw [← List.head?_reverse, ← List.head?_reverse]
  generalize tokens.reverse = first at hreverse ⊢
  generalize tokens'.reverse = first' at hreverse ⊢
  cases hreverse with
  | nil => exact .none
  | cons ht _ => exact .some ht

/-- Texts with the same words have the same tokens in front of the rules. -/
theorem alike_ofTokens {tokens tokens' : List Token}
    (h : Token.words tokens = Token.words tokens') : (ofTokens tokens).Alike (ofTokens tokens') := by
  have hkept :
      Alike (tokens.filter (·.kind != .comment)) (tokens'.filter (·.kind != .comment)) := by
    rw [Token.words, Token.words, ← List.forall₂_eq_eq_eq, List.forall₂_map_left_iff,
      List.forall₂_map_right_iff] at h
    exact h.imp fun _ _ => Token.like_of_unplaced
  have hend (pos pos' : Position) :
      Alike [⟨.endOfText, "", none, pos⟩] [⟨.endOfText, "", none, pos'⟩] :=
    .cons ⟨rfl, rfl, rfl, trivial⟩ .nil
  unfold ofTokens
  dsimp only
  generalize tokens.filter (·.kind != .comment) = kept at hkept
  generalize tokens'.filter (·.kind != .comment) = kept' at hkept
  have hlast := hkept.getLast?
  generalize kept.getLast? = last? at hlast ⊢
  generalize kept'.getLast? = last?' at hlast ⊢
  cases hlast with
  | none => exact hend _ _
  | @some last last' hlast =>
    dsimp only
    have hisEnd : last.isEnd = last'.isEnd := by simp [Token.isEnd, hlast.kind]
    rw [hisEnd]
    split
    · exact hkept
    · exact List.rel_append hkept (hend _ _)

end Cursor

theorem Cursor.blame_unplaced {c c' : Cursor} {error : Token → ParseError}
    (hf : ParseError.Form error) (h : c.Alike c') :
    (c.blame error).error.unplaced = (c'.blame error).error.unplaced := by
  cases h with
  | nil => rfl
  | cons ht _ => cases hf <;> simp [blame, current?, ParseError.unplaced, ht.unplaced]

/-! ## Statements -/

namespace Grammar

open Parsed

variable {c c' : Cursor}

theorem semicolon_alongside (h : c.Alike c') (expectation : String) :
    Alongside Cursor.Alike (fun _ _ => True) (c.take .semicolon expectation)
      (c'.take .semicolon expectation) := by
  unfold Cursor.take Cursor.accept?
  cases h with
  | nil => exact .error (.unexpected expectation) .nil
  | @cons t t' rest rest' ht hr =>
    dsimp only
    by_cases hk : t.kind = .semicolon
    · rw [if_pos hk, if_pos (ht.kind ▸ hk)]
      exact .ok trivial hr
    · rw [if_neg hk, if_neg (ht.kind ▸ hk)]
      exact .error (.unexpected expectation) (.cons ht hr)

/-- The query of a statement, as far as it does not tell positions. -/
abbrev SameQuery (query query' : Select) : Prop := query.unplaced = query'.unplaced

theorem statement_alongside (h : c.Alike c') :
    Alongside Cursor.Alike SameQuery (statement c) (statement c') := by
  unfold statement
  refine (query_alongside Cursor.tracks_alike likeness_unplaced h).bind
    fun query query' c₁ c₁' h₁ h₁' hq hb => ?_
  dsimp only
  rw [hb.isAtEnd]
  split
  · exact .ok hq hb
  · exact (semicolon_alongside hb _).bind fun _ _ _ _ _ _ _ hb₂ => .ok hq hb₂

theorem single_alongside (h : c.Alike c') :
    Alongside Cursor.Alike SameQuery (single c) (single c') := by
  unfold single
  refine (statement_alongside h).bind fun query query' c₁ c₁' h₁ h₁' hq hb => ?_
  dsimp only
  rw [hb.isAtEnd]
  split
  · exact .ok hq hb
  · exact .error (.unexpected _) hb

end Grammar

/-! ## Messages -/

/-- Texts that differ in nothing but the positions they name. -/
inductive UpToPlaces : String → String → Prop
  | same (text : String) : UpToPlaces text text
  | place (p p' : Position) : UpToPlaces p.shown p'.shown
  | append {s s' t t' : String} (h : UpToPlaces s s') (h' : UpToPlaces t t') :
    UpToPlaces (s ++ t) (s' ++ t')

theorem UpToPlaces.behind (text : String) {s s' : String} (h : UpToPlaces s s') :
    UpToPlaces (text ++ s) (text ++ s') := .append (.same text) h

theorem UpToPlaces.before {s s' : String} (h : UpToPlaces s s') (text : String) :
    UpToPlaces (s ++ text) (s' ++ text) := .append h (.same text)

theorem ScanError.message_upToPlaces {e e' : ScanError} (h : e.unplaced = e'.unplaced) :
    UpToPlaces e.message e'.message := by
  cases e <;> cases e' <;> cases h <;> exact .behind _ (.place _ _)

theorem Token.shown_upToPlaces {t t' : Token} (h : t.unplaced = t'.unplaced) :
    UpToPlaces t.shown t'.shown := by
  have ht := like_of_unplaced h
  have hend : t.isEnd = t'.isEnd := by simp [isEnd, ht.kind]
  unfold shown
  rw [hend, ht.lexeme]
  split <;> exact .behind _ (.place _ _)

theorem ParseError.message_upToPlaces {e e' : ParseError} (h : e.unplaced = e'.unplaced) :
    UpToPlaces e.message e'.message := by
  cases e <;> cases e' <;> simp only [unplaced, reduceCtorEq] at h
  case scan.scan error error' => exact .behind _ (error.message_upToPlaces (scan.inj h))
  case unexpectedToken.unexpectedToken t expectation t' expectation' =>
    obtain ⟨ht, rfl⟩ := unexpectedToken.inj h
    exact .behind _ (t.shown_upToPlaces ht)
  case invalidSyntax.invalidSyntax t reason t' reason' =>
    obtain ⟨-, rfl⟩ := invalidSyntax.inj h
    exact (UpToPlaces.behind _ (.place _ _)).before _ |>.before _
  case unsupported.unsupported t feature t' feature' =>
    obtain ⟨-, rfl⟩ := unsupported.inj h
    exact (UpToPlaces.behind _ (.place _ _)).before _
  case endOfInput.endOfInput => exact .same _

/-! ## Texts -/

/-- Texts with the same words are read as one query, but for positions, or not read for one
reason. -/
theorem Select.ofText?_of_words {a b : String} (h : Token.wordsOf a = Token.wordsOf b) :
    (∃ query query', Select.ofText? a = .ok query ∧ Select.ofText? b = .ok query' ∧
        query.unplaced = query'.unplaced) ∨
      ∃ e e', Select.ofText? a = .error e ∧ Select.ofText? b = .error e' ∧
        e.unplaced = e'.unplaced := by
  unfold Token.wordsOf at h
  unfold Select.ofText? Grammar.read Cursor.ofText?
  generalize Token.scan? a = scanned at h ⊢
  generalize Token.scan? b = scanned' at h ⊢
  cases scanned with
  | error e =>
    cases scanned' with
    | error e' =>
      have he : e.unplaced = e'.unplaced := Except.error.inj h
      exact .inr ⟨.scan e, .scan e', rfl, rfl, congrArg ParseError.scan he⟩
    | ok tokens' => cases h
  | ok tokens =>
    cases scanned' with
    | error e' => cases h
    | ok tokens' =>
      have hread := Grammar.single_alongside (Cursor.alike_ofTokens (Except.ok.inj h))
      simp only [Bind.bind, Except.bind]
      generalize Grammar.single (Cursor.ofTokens tokens) = outcome at hread ⊢
      generalize Grammar.single (Cursor.ofTokens tokens') = outcome' at hread ⊢
      cases hread with
      | ok hq _ => exact .inl ⟨_, _, rfl, rfl, hq⟩
      | error hf hr => exact .inr ⟨_, _, rfl, rfl, Cursor.blame_unplaced hf hr⟩

end TableQuery
