import Mathlib
import TableQuery.Proofs.Query.Layout
import TableQuery.Proofs.Token.Lossless
import TableQuery.Proofs.Token.Quoted

/-! # Tokens in lines of their own

Where a token ends is settled by its own characters as soon as nothing but the end of a line or of
the text stands behind it. So tokens that have been scanned from a text are scanned again from their
lexemes, one in each line or each one alone. -/

namespace TableQuery

open Text

namespace Token

/-! ## One token -/

/-- A line or the text ends here. -/
def AtLineEnd (cs : List Char) : Prop := ∀ d ∈ cs.head?, d = '\n'

theorem atLineEnd_nil : AtLineEnd [] := nofun

theorem atLineEnd_newline (cs : List Char) : AtLineEnd ('\n' :: cs) := by simp [AtLineEnd]

variable {c : Char} {rest behind : List Char} {e : Extent}

/-- What has been taken is taken again in front of something else that is not taken. -/
theorem takeWhile_again {p : Char → Bool} (hp : ∀ d ∈ behind.head?, p d = false) (cs : List Char) :
    (cs.takeWhile p ++ behind).takeWhile p = cs.takeWhile p ∧
      (cs.takeWhile p ++ behind).dropWhile p = behind := by
  have htaken : ∀ d ∈ cs.takeWhile p, p d = true := fun d => List.mem_takeWhile_imp
  rw [List.takeWhile_append_of_pos htaken, List.dropWhile_append_of_pos htaken]
  cases behind with
  | nil => simp
  | cons d more => simp [hp d rfl]

theorem AtLineEnd.fails (h : AtLineEnd behind) {p : Char → Bool} (hp : p '\n' = false) :
    ∀ d ∈ behind.head?, p d = false := by
  intro d hd
  rw [h d hd, hp]

theorem AtLineEnd.head_ne (h : AtLineEnd behind) {d : Char} (hd : d ≠ '\n') :
    behind.head? ≠ some d := fun he => hd (h d he)

theorem numberSize_again (h : AtLineEnd behind) (rest : List Char) :
    numberSize (rest.take (numberSize rest) ++ behind) = numberSize rest := by
  have hbehind : ∀ d ∈ behind.head?, d.isDigit = false := h.fails (by decide)
  obtain ⟨hdigits, hdrop⟩ := takeWhile_again hbehind rest
  -- without a point the digits alone are taken, and no point follows them now
  have hwhole (hsize : numberSize rest = (rest.takeWhile Char.isDigit).length) :
      numberSize (rest.take (numberSize rest) ++ behind) = numberSize rest := by
    have hno : ((rest.takeWhile Char.isDigit ++ behind).dropWhile Char.isDigit).head? ≠
        some '.' := by
      rw [hdrop]
      exact h.head_ne (by decide)
    rw [hsize, take_takeWhile, numberSize_whole hno, hdigits]
  by_cases hpoint : (rest.dropWhile Char.isDigit).head? = some '.'
  · obtain ⟨more, hmore⟩ := List.head?_eq_some_iff.mp hpoint
    have hsize := numberSize_point hmore
    by_cases hfraction : (more.takeWhile Char.isDigit).isEmpty = true
    · rw [if_pos hfraction] at hsize
      exact hwhole hsize
    · rw [if_neg hfraction] at hsize
      obtain ⟨hagain, -⟩ := takeWhile_again hbehind more
      have hprefix :
          rest.takeWhile Char.isDigit ++ '.' :: more.takeWhile Char.isDigit <+: rest := by
        refine ⟨more.dropWhile Char.isDigit, ?_⟩
        rw [List.append_assoc, List.cons_append, List.takeWhile_append_dropWhile, ← hmore,
          List.takeWhile_append_dropWhile]
      have htaken : rest.take (numberSize rest) =
          rest.takeWhile Char.isDigit ++ '.' :: more.takeWhile Char.isDigit := by
        rw [hsize, Nat.add_comm 1, ← List.length_cons, ← List.length_append]
        exact (List.prefix_iff_eq_take.mp hprefix).symm
      have hdot : ∀ d ∈ ('.' :: (more.takeWhile Char.isDigit ++ behind)).head?,
          d.isDigit = false := by simp
      obtain ⟨hwhole, hpart⟩ := takeWhile_again hdot rest
      rw [htaken, List.append_assoc, List.cons_append, numberSize_point hpart, hwhole, hagain,
        if_neg hfraction, ← hsize]
  · exact hwhole (numberSize_whole hpoint)

/-- Only an equals sign or an angle bracket may belong to the character in front of it. -/
theorem symbolExtent?_again (h : AtLineEnd behind) (hs : symbolExtent? c rest = some e) :
    symbolExtent? c (rest.take e.more ++ behind) = some e := by
  have hequal : ∀ more, behind ≠ '=' :: more := fun more he =>
    h.head_ne (d := '=') (by decide) (by rw [he]; rfl)
  have hgreater : ∀ more, behind ≠ '>' :: more := fun more he =>
    h.head_ne (d := '>') (by decide) (by rw [he]; rfl)
  unfold symbolExtent? at hs
  split at hs <;> cases hs
  case h_16 => exact symbolExtent?.eq_16 behind hequal hgreater
  case h_18 => exact symbolExtent?.eq_18 behind hequal
  all_goals rfl

/-- A token is the same one where nothing follows it in its line. -/
theorem Extent.Of.again (he : e.Of c rest) (h : AtLineEnd behind) :
    e.Of c (rest.take e.more ++ behind) := by
  cases he with
  | comment hd =>
    obtain ⟨rfl, hr⟩ := hd
    obtain ⟨more, rfl⟩ := List.head?_eq_some_iff.mp hr
    obtain ⟨hagain, -⟩ := takeWhile_again (p := (· != '\n')) (h.fails (by decide)) more
    have hsame : commentExtent ('-' :: (more.takeWhile (· != '\n') ++ behind)) =
        commentExtent ('-' :: more) := by
      simp only [commentExtent, List.drop_succ_cons, List.drop_zero, hagain]
    have htaken : List.take (commentExtent ('-' :: more)).more ('-' :: more) =
        '-' :: more.takeWhile (· != '\n') := by
      simp only [commentExtent, List.drop_succ_cons, List.drop_zero, List.take_succ_cons,
        take_takeWhile]
    rw [htaken, List.cons_append, ← hsame]
    exact .comment ⟨rfl, rfl⟩
  | @string text size hq hc =>
    obtain ⟨hline, rfl, following, -, rfl⟩ := Quoted.close?_eq_some_iff.mp hc
    refine .string hq (Quoted.close?_eq_some_iff.mpr ⟨hline, rfl, behind, ?_, ?_⟩)
    · exact h.head_ne (by decide)
    · simp [List.take_append]
  | @number n hd hn =>
    have hsize := numberSize_again h rest
    have htaken : (rest.take (numberSize rest) ++ behind).take (numberSize rest) =
        rest.take (numberSize rest) :=
      List.take_left' (List.length_take_of_le (plain_numberSize hd rest).1)
    generalize rest.take (numberSize rest) = digits at hsize htaken hn ⊢
    rw [← hsize] at htaken ⊢
    exact .number hd (by rwa [htaken])
  | @word word hw hword =>
    obtain ⟨hagain, -⟩ := takeWhile_again (p := isWordPart) (h.fails (by decide)) rest
    have hof : Extent.Of c (rest.takeWhile isWordPart ++ behind) _ := .word hw rfl
    rw [hagain, ← hword] at hof
    dsimp only
    rwa [take_takeWhile]
  | symbol hd hs =>
    refine .symbol (fun hdash => ?_) (symbolExtent?_again h hs)
    obtain ⟨rfl, hdash⟩ := hdash
    cases hs
    exact h.head_ne (by decide) hdash

/-! ## Scans -/

/-- A token that nothing follows in its line is scanned as it is, wherever it stands. -/
theorem Formed.scanFrom_behind {t : Token} (ht : t.Formed) (pos : Position) {blanks : List Char}
    (hb : ∀ d ∈ blanks, isBlank d = true) (h : AtLineEnd behind) :
    ∃ p p', scanFrom pos (blanks ++ (t.lexeme.toList ++ behind)) =
      ({ t with pos := p } :: (scanFrom p' behind).1, (scanFrom p' behind).2) := by
  obtain @⟨c, rest, e, start, he⟩ := ht
  have hlength : e.more = (rest.take e.more).length :=
    (List.length_take_of_le (extent_fits (he.ok start)).more).symm
  have hscan := scanFrom_append pos hb (he.again h) hlength
  rw [String.toList_ofList]
  exact ⟨_, _, hscan⟩

/-- Tokens are scanned again from their lexemes, one in each line. -/
theorem scanFrom_lines {words : List Token} (hw : ∀ t ∈ words, t.Formed) (pos : Position)
    {blanks : List Char} (hb : ∀ d ∈ blanks, isBlank d = true) :
    ∃ tokens p,
      scanFrom pos (blanks ++ ['\n'].intercalate (words.map (·.lexeme.toList))) =
        (tokens ++ [⟨.endOfText, "", none, p⟩], none) ∧
      tokens.map Token.unplaced = words.map Token.unplaced := by
  induction words generalizing pos blanks with
  | nil =>
    have hend : (blanks ++ ['\n'].intercalate []).dropWhile isBlank = [] := by
      rw [List.dropWhile_append_of_pos hb]
      rfl
    obtain ⟨p, hscan⟩ := scanFrom_end pos hend
    exact ⟨[], p, hscan, rfl⟩
  | cons t words ih =>
    obtain ⟨ht, hwords⟩ := List.forall_mem_cons.mp hw
    -- the other tokens stand behind a line end, if there are any
    obtain ⟨gap, hgap, hend, htext⟩ : ∃ gap : List Char, (∀ d ∈ gap, isBlank d = true) ∧
        AtLineEnd (gap ++ ['\n'].intercalate (words.map (·.lexeme.toList))) ∧
        ['\n'].intercalate ((t :: words).map (·.lexeme.toList)) = t.lexeme.toList ++
          (gap ++ ['\n'].intercalate (words.map (·.lexeme.toList))) := by
      cases words with
      | nil => exact ⟨[], List.forall_mem_nil _, atLineEnd_nil, by simp⟩
      | cons u more =>
        refine ⟨['\n'], by simp [isBlank_newline], atLineEnd_newline _, ?_⟩
        simp [List.intercalate_cons_cons]
    obtain ⟨p, p', hscan⟩ := ht.scanFrom_behind pos hb hend
    obtain ⟨tokens, last, hothers, hsame⟩ := ih hwords p' hgap
    refine ⟨{ t with pos := p } :: tokens, last, ?_, ?_⟩
    · rw [htext, hscan, hothers]
      rfl
    · rw [List.map_cons, List.map_cons, hsame]
      rfl

theorem scan?_lines {words : List Token} (hw : ∀ t ∈ words, t.Formed) :
    (scan? ("\n".intercalate (words.map (·.lexeme)))).map (List.map Token.unplaced) =
      .ok (words.map Token.unplaced ++ [⟨.endOfText, "", none, .start⟩]) := by
  obtain ⟨tokens, p, hscan, hsame⟩ := scanFrom_lines hw .start (List.forall_mem_nil _)
  have htext : ("\n".intercalate (words.map (·.lexeme))).toList =
      ['\n'].intercalate (words.map (·.lexeme.toList)) := by
    rw [String.toList_intercalate, List.map_map]
    rfl
  rw [List.nil_append, ← htext] at hscan
  rw [scan?, scan, hscan]
  exact congrArg Except.ok (by rw [List.map_append, hsame]; rfl)

/-- The tokens of a text without fault can be spread over lines: from their lexemes, one in each
line, the same tokens are scanned again, positions aside, and each token is scanned from its own
lexeme alone. -/
theorem scan_respaced {text : String} {tokens : List Token} (h : scan? text = .ok tokens) :
    ∃ words last, tokens = words ++ [last] ∧ last.unplaced = ⟨.endOfText, "", none, .start⟩ ∧
      (∀ t ∈ words, t.isEnd = false) ∧
      (scan? ("\n".intercalate (words.map (·.lexeme)))).map (List.map Token.unplaced) =
        .ok (tokens.map Token.unplaced) ∧
      ∀ t ∈ words, (scan? t.lexeme).map (List.map Token.unplaced) =
        .ok [t.unplaced, last.unplaced] := by
  have hscan : Resumes [] text.toList (scan text) := scanFrom_resumes pieced_nil Position.start_eq
  unfold scan? at h
  generalize hrun : scan text = run at hscan h
  cases hscan with
  | stopped => cases h
  | @ended pieces blanks hp hb hcs =>
    cases h
    have hinside : ∀ t ∈ pieces.map (·.token), t.isEnd = false :=
      List.forall_mem_map.mpr hp.inside
    have hformed : ∀ t ∈ pieces.map (·.token), t.Formed := by
      intro t ht
      have hmem : t ∈ (scan text).1 := by
        rw [hrun]
        exact List.mem_append_left _ ht
      exact formed_of_mem hmem (hinside t ht)
    refine ⟨pieces.map (·.token), _, rfl, rfl, hinside, ?_, fun t ht => ?_⟩
    · rw [scan?_lines hformed, List.map_append]
      rfl
    · have halone := scan?_lines (List.forall_mem_singleton.mpr (hformed t ht))
      rw [List.map_singleton, String.intercalate_singleton] at halone
      exact halone

theorem comment_and_point_respaced :
    ∃ words last, scan? "a<=7.--x" = .ok (words ++ [last]) ∧
      words.map (·.lexeme) = ["a", "<=", "7", ".", "--x"] ∧
      (scan? "a\n<=\n7\n.\n--x").map (List.map Token.unplaced) =
        .ok ((words ++ [last]).map Token.unplaced) ∧
      ∀ t ∈ words, (scan? t.lexeme).map (List.map Token.unplaced) =
        .ok [t.unplaced, last.unplaced] := by
  have hscan : scan? "a<=7.--x" = .ok ([⟨.identifier, "a", none, ⟨1, 1⟩⟩,
      ⟨.lessEqual, "<=", none, ⟨1, 2⟩⟩, ⟨.number, "7", some (.number (.ofNat 7)), ⟨1, 4⟩⟩,
      ⟨.dot, ".", none, ⟨1, 5⟩⟩, ⟨.comment, "--x", some (.text "x"), ⟨1, 6⟩⟩] ++
        [⟨.endOfText, "", none, ⟨1, 9⟩⟩]) := by cbv
  obtain ⟨words, last, htokens, -, -, hlines, halone⟩ := scan_respaced hscan
  obtain ⟨rfl, he⟩ := List.append_inj' htokens rfl
  cases he
  exact ⟨_, _, hscan, rfl, hlines, halone⟩

end Token

end TableQuery
