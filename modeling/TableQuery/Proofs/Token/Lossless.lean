import TableQuery.Proofs.Token.Scan

/-! # Nothing of a text is lost

The tokens of a text, with blanks between them, make up the text again, and the position of a token
tells the lines and columns in front of it. That holds for all tokens before a fault, too, and the
fault is at the character behind them. -/

namespace TableQuery

open Text

/-! ## Positions -/

namespace Position

/-- The place behind a text: as many lines as it ends, and the columns of the line it does not. -/
def behind (cs : List Char) : Position :=
  ⟨1 + cs.count '\n', 1 + (cs.reverse.takeWhile (· != '\n')).length⟩

theorem next_behind (cs : List Char) (c : Char) : (behind cs).next c = behind (cs ++ [c]) := by
  unfold next behind
  by_cases hc : c = '\n'
  · simp [hc, Nat.add_assoc]
  · simp [hc, Nat.add_assoc]

theorem after_behind (cs ds : List Char) : (behind cs).after ds = behind (cs ++ ds) := by
  induction ds generalizing cs with
  | nil => simp [after]
  | cons d ds ih =>
    have hstep := ih (cs ++ [d])
    rw [← next_behind, List.append_assoc] at hstep
    exact hstep

theorem start_eq : start = behind [] := rfl

end Position

namespace Token

/-! ## Pieces of a text -/

/-- Blanks and the token behind them. -/
structure Piece where
  blanks : List Char
  token : Token

def Piece.text (piece : Piece) : List Char := piece.blanks ++ piece.token.lexeme.toList

/-- The text that pieces make up. -/
def textOf (pieces : List Piece) : List Char := pieces.flatMap Piece.text

/-- In every piece there are blanks only and a token with characters of its own, and the token knows
its place in the text. -/
structure Pieced (pieces : List Piece) : Prop where
  blank : ∀ piece ∈ pieces, ∀ c ∈ piece.blanks, isBlank c = true
  lexeme : ∀ piece ∈ pieces, piece.token.lexeme ≠ ""
  inside : ∀ piece ∈ pieces, piece.token.isEnd = false
  placed : ∀ before piece after, pieces = before ++ piece :: after →
    piece.token.pos = .behind (textOf before ++ piece.blanks)

theorem pieced_nil : Pieced [] where
  blank := List.forall_mem_nil _
  lexeme := List.forall_mem_nil _
  inside := List.forall_mem_nil _
  placed := by simp

theorem Pieced.append_nil {pieces : List Piece} (h : Pieced pieces) : Pieced (pieces ++ []) := by
  rwa [List.append_nil]

/-- One more piece behind the others. -/
theorem Pieced.append {pieces : List Piece} {piece : Piece} (h : Pieced pieces)
    (hb : ∀ c ∈ piece.blanks, isBlank c = true) (hl : piece.token.lexeme ≠ "")
    (hi : piece.token.isEnd = false)
    (hp : piece.token.pos = .behind (textOf pieces ++ piece.blanks)) :
    Pieced (pieces ++ [piece]) where
  blank := List.forall_mem_append.mpr ⟨h.blank, List.forall_mem_singleton.mpr hb⟩
  lexeme := List.forall_mem_append.mpr ⟨h.lexeme, List.forall_mem_singleton.mpr hl⟩
  inside := List.forall_mem_append.mpr ⟨h.inside, List.forall_mem_singleton.mpr hi⟩
  placed before other after he := by
    rcases List.eq_nil_or_concat after with rfl | ⟨front, last, rfl⟩
    · obtain ⟨rfl, hlast⟩ := List.append_inj' he rfl
      cases hlast
      exact hp
    · rw [List.concat_eq_append, ← List.cons_append, ← List.append_assoc] at he
      exact h.placed before other front (List.append_inj' he rfl).1

/-! ## Faults -/

/-- The fault is at the position, where the rest of the text begins: with the character that was not
expected, or with the quote of a string that is not closed. -/
def FaultAt (fault : ScanError) (pos : Position) : List Char → Prop
  | [] => False
  | c :: _ => fault = .unexpectedCharacter c pos ∨
      (c = Quoted.quote ∧ fault = .unterminatedString pos)

theorem extent_faultAt {pos : Position} {c : Char} {rest : List Char} {fault : ScanError}
    (h : extent pos c rest = .error fault) : FaultAt fault pos (c :: rest) := by
  rcases extent_fault h with rfl | rfl
  · refine .inr ⟨?_, rfl⟩
    -- only what begins with a quote is read as a string
    by_contra hc
    unfold extent at h
    simp only [if_neg hc] at h
    split at h
    · cases h
    · split at h
      · split at h <;> cases h
      · split at h
        · cases h
        · split at h <;> cases h
  · exact .inl rfl

theorem wordKind_ne_endOfText (word : String) : (wordKind word).1 ≠ .endOfText := by
  unfold wordKind
  split <;> nofun

/-- No token but the last marks the end of the text. -/
theorem extent_inside {pos : Position} {c : Char} {rest : List Char} {e : Extent}
    (h : extent pos c rest = .ok e) : e.kind ≠ .endOfText := by
  unfold extent at h
  split at h
  · cases h
    nofun
  · split at h
    · split at h
      · cases h
        nofun
      · cases h
    · split at h
      · dsimp only at h
        split at h
        · cases h
          nofun
        · cases h
      · split at h
        · cases h
          exact wordKind_ne_endOfText _
        · split at h
          · next hs =>
            cases h
            unfold symbolExtent? at hs
            split at hs <;> cases hs <;> nofun
          · cases h

/-! ## Scans -/

theorem textOf_cons (piece : Piece) (pieces : List Piece) :
    textOf (piece :: pieces) = piece.text ++ textOf pieces := rfl

theorem textOf_concat (pieces : List Piece) (piece : Piece) :
    textOf (pieces ++ [piece]) = textOf pieces ++ piece.text := by
  simp [textOf]

/-- What a scan of the text behind some pieces comes to: more pieces, and behind them blanks up to
the end of the text or a fault. -/
inductive Resumes (scanned : List Piece) (cs : List Char) : List Token × Option ScanError → Prop
  | ended {more : List Piece} {blanks : List Char} (hp : Pieced (scanned ++ more))
    (hb : ∀ c ∈ blanks, isBlank c = true) (hcs : cs = textOf more ++ blanks) :
    Resumes scanned cs
      (more.map (·.token) ++ [⟨.endOfText, "", none, .behind (textOf scanned ++ cs)⟩], none)
  | stopped {more : List Piece} {blanks rest : List Char} {fault : ScanError}
    (hp : Pieced (scanned ++ more)) (hb : ∀ c ∈ blanks, isBlank c = true)
    (hcs : cs = textOf more ++ (blanks ++ rest))
    (hf : FaultAt fault (.behind (textOf (scanned ++ more) ++ blanks)) rest) :
    Resumes scanned cs (more.map (·.token), some fault)

/-- The first of the further pieces may be counted among the pieces before. -/
theorem Resumes.cons {scanned : List Piece} {piece : Piece} {cs : List Char} {tokens : List Token}
    {fault : Option ScanError} (h : Resumes (scanned ++ [piece]) cs (tokens, fault)) :
    Resumes scanned (piece.text ++ cs) (piece.token :: tokens, fault) := by
  cases h with
  | @ended more blanks hp hb hcs =>
    rw [List.append_assoc] at hp
    rw [textOf_concat, List.append_assoc]
    exact .ended hp hb (by rw [List.singleton_append, textOf_cons, hcs, List.append_assoc])
  | @stopped more _ _ _ hp hb hcs hf =>
    rw [List.append_assoc] at hp hf
    exact .stopped hp hb (by rw [List.singleton_append, textOf_cons, hcs, List.append_assoc]) hf

/-- The blanks in front of the next token, and the position behind them. -/
theorem behind_blanks {pos : Position} {before cs tail : List Char} (hpos : pos = .behind before)
    (hcut : cs.dropWhile isBlank = tail) :
    cs = cs.takeWhile isBlank ++ tail ∧ (∀ c ∈ cs.takeWhile isBlank, isBlank c = true) ∧
      pos.after (cs.takeWhile isBlank) = .behind (before ++ cs.takeWhile isBlank) := by
  refine ⟨?_, fun c => List.mem_takeWhile_imp, ?_⟩
  · rw [← hcut, List.takeWhile_append_dropWhile]
  · rw [hpos, Position.after_behind]

theorem scanFrom_resumes {pos : Position} {cs : List Char} {scanned : List Piece}
    (h : Pieced scanned) (hpos : pos = .behind (textOf scanned)) :
    Resumes scanned cs (scanFrom pos cs) := by
  fun_induction scanFrom pos cs generalizing scanned with
  | case1 pos cs start =>
    rename_i hcut
    obtain ⟨hcs, hblank, hstart⟩ := behind_blanks hpos hcut
    rw [List.append_nil] at hcs
    rw [show start = _ from hstart, ← hcs]
    exact .ended (h.append_nil) (hcs ▸ hblank) rfl
  | case2 pos cs start c rest hcut fault =>
    rename_i hfault
    obtain ⟨hcs, hblank, hstart⟩ := behind_blanks hpos hcut
    have hat : FaultAt fault (.behind (textOf (scanned ++ []) ++ cs.takeWhile isBlank))
        (c :: rest) := by
      rw [List.append_nil, ← hstart]
      exact extent_faultAt hfault
    exact .stopped h.append_nil hblank hcs hat
  | case3 pos cs start c rest hcut e he lexeme others found hrest =>
    rename_i ih
    obtain ⟨hcs, hblank, hstart⟩ := behind_blanks hpos hcut
    let piece : Piece :=
      ⟨cs.takeWhile isBlank, ⟨e.kind, String.ofList lexeme, e.literal, start⟩⟩
    have hpiece : piece.text = cs.takeWhile isBlank ++ lexeme := by simp [piece, Piece.text]
    have hmore : Pieced (scanned ++ [piece]) := by
      refine h.append hblank ?_ (beq_false_of_ne (extent_inside he)) hstart
      simp [piece, lexeme]
    have hnext : start.after lexeme = .behind (textOf (scanned ++ [piece])) := by
      rw [show start = _ from hstart, Position.after_behind, textOf_concat, hpiece,
        List.append_assoc]
    have hresumes := ih hmore hnext
    rw [hrest] at hresumes
    have hwhole : cs = piece.text ++ rest.drop e.more := by
      rw [hpiece, List.append_assoc, List.cons_append, List.take_append_drop, ← hcs]
    rw [hwhole]
    exact hresumes.cons

/-- A text is blanks and lexemes in turn and nothing else, and every token knows the lines and
columns in front of it. Where the scan ends with a fault, that holds up to the fault, which is at
the next character that is not blank. -/
theorem scan_lossless (text : String) :
    ∃ (pieces : List Piece) (blanks rest : List Char), Pieced pieces ∧
      (∀ c ∈ blanks, isBlank c = true) ∧ text.toList = textOf pieces ++ (blanks ++ rest) ∧
      ((rest = [] ∧ scan text = (pieces.map (·.token) ++
          [⟨.endOfText, "", none, .behind text.toList⟩], none)) ∨
        ∃ fault, FaultAt fault (.behind (textOf pieces ++ blanks)) rest ∧
          scan text = (pieces.map (·.token), some fault)) := by
  have hscan : Resumes [] text.toList (scan text) := scanFrom_resumes pieced_nil Position.start_eq
  generalize hrun : scan text = run at hscan ⊢
  cases hscan with
  | @ended pieces blanks hp hb hcs =>
    exact ⟨pieces, blanks, [], hp, hb, by rw [hcs, List.append_nil], .inl ⟨rfl, rfl⟩⟩
  | @stopped pieces blanks rest fault hp hb hcs hf =>
    exact ⟨pieces, blanks, rest, hp, hb, hcs, .inr ⟨fault, hf, rfl⟩⟩

end Token

end TableQuery
