import TableQuery.Proofs.Text.Lowercase
import TableQuery.Proofs.Token.Scan

/-! # Forms of tokens

What a token is and where it ends depends on what it begins with. Each form is told apart from the
others by its first character, so what has the form of a token is scanned as that token. -/

namespace TableQuery

open Text

namespace Token

variable {pos : Position} {c : Char} {rest cs : List Char} {e : Extent}

theorem take_takeWhile (p : Char → Bool) (cs : List Char) :
    cs.take (cs.takeWhile p).length = cs.takeWhile p :=
  (List.prefix_iff_eq_take.mp (List.takeWhile_prefix p)).symm

theorem drop_takeWhile (p : Char → Bool) (cs : List Char) :
    cs.drop (cs.takeWhile p).length = cs.dropWhile p :=
  (congrArg (List.drop _) List.takeWhile_append_dropWhile.symm).trans List.drop_left

/-! ## Numbers -/

theorem isSign_of_isDigit {c : Char} (h : c.isDigit = true) : IsSign c := by
  simp only [Char.isDigit, Bool.and_eq_true, decide_eq_true_eq] at h
  obtain ⟨hlow, hhigh⟩ := h
  have hlow : 0x30 ≤ c.toNat := hlow
  have hhigh : c.toNat ≤ 0x39 := hhigh
  exact ⟨by omega, by omega⟩

theorem numberSize_whole (h : (rest.dropWhile Char.isDigit).head? ≠ some '.') :
    numberSize rest = (rest.takeWhile Char.isDigit).length := by
  unfold numberSize
  dsimp only
  split
  · next hp =>
    rw [hp] at h
    exact absurd rfl h
  · rfl

theorem numberSize_point {more : List Char} (h : rest.dropWhile Char.isDigit = '.' :: more) :
    numberSize rest = (rest.takeWhile Char.isDigit).length +
      if (more.takeWhile Char.isDigit).isEmpty then 0
      else 1 + (more.takeWhile Char.isDigit).length := by
  unfold numberSize
  dsimp only
  rw [h]
  cases more with
  | nil => rfl
  | cons d more =>
    cases hd : d.isDigit with
    | true => simp [hd, Nat.add_assoc]
    | false => simp [hd]

/-! ## Words -/

theorem toNat_of_isWordPart {d : Char} (h : isWordPart d = true) : d.toNat < 0x80 := by
  simp only [isWordPart, Char.isAlphanum, Char.isAlpha, Char.isUpper, Char.isLower, Char.isDigit,
    Bool.or_eq_true, Bool.and_eq_true, decide_eq_true_eq, beq_iff_eq] at h
  rcases h with rfl | ((⟨-, hle⟩ | ⟨-, hle⟩) | ⟨-, hle⟩)
  · decide
  all_goals exact Nat.lt_of_le_of_lt (UInt32.le_iff_toNat_le.mp hle) (by decide)

/-- A word is a reserved word or a name. -/
theorem wordKind_cases (word : String) :
    (∃ k, (wordKind word).1 = .keyword k) ∨ (wordKind word).1 = .identifier := by
  unfold wordKind
  split
  · exact .inr rfl
  · exact .inl ⟨_, rfl⟩

/-! ## All forms -/

/-- The forms of tokens, by what they begin with. -/
inductive Extent.Of (c : Char) (rest : List Char) : Extent → Prop
  | comment (hd : c = '-' ∧ rest.head? = some '-') : Extent.Of c rest (commentExtent rest)
  | string {text : List Char} {size : Nat} (hq : c = Quoted.quote)
    (hc : Quoted.close? rest = some (text, size)) :
    Extent.Of c rest ⟨.string, some (.text (String.ofList text)), size⟩
  | number {n : Number} (hd : c.isDigit = true)
    (hn : Number.ofText? (String.ofList (c :: rest.take (numberSize rest))) = some n) :
    Extent.Of c rest ⟨.number, some (.number n), numberSize rest⟩
  | word {word : String} (hw : isWordStart c = true)
    (hword : word = String.ofList (c :: rest.takeWhile isWordPart)) :
    Extent.Of c rest ⟨(wordKind word).1, (wordKind word).2, (rest.takeWhile isWordPart).length⟩
  | symbol {e : Extent} (hd : ¬(c = '-' ∧ rest.head? = some '-'))
    (hs : symbolExtent? c rest = some e) : Extent.Of c rest e

theorem extent_of (h : extent pos c rest = .ok e) : e.Of c rest := by
  unfold extent at h
  split at h
  · cases h
    exact .comment ‹_›
  · split at h
    · split at h <;> cases h
      exact .string ‹_› ‹_›
    · split at h
      · dsimp only at h
        split at h <;> cases h
        exact .number ‹_› ‹_›
      · split at h
        · cases h
          exact .word ‹_› rfl
        · split at h <;> cases h
          exact .symbol ‹_› ‹_›

theorem isWordPart_of_start (h : isWordStart c = true) : isWordPart c = true := by
  simp only [isWordStart, isWordPart, Char.isAlphanum, Bool.or_eq_true] at h ⊢
  exact h.imp_right .inl

theorem symbol_apart (h : symbolExtent? c rest = some e) :
    c.toNat < 0x80 ∧ isBlank c = false ∧ c ≠ Quoted.quote ∧ c.isDigit = false ∧
      isWordStart c = false := by
  unfold symbolExtent? at h
  split at h <;> cases h <;> decide

theorem Extent.Of.start (h : e.Of c rest) : c.toNat < 0x80 ∧ isBlank c = false := by
  cases h with
  | comment hd => rw [hd.1]; decide
  | string hq hc => rw [hq]; decide
  | number hd hn =>
    have hlt : c.toNat < 0x80 := Nat.lt_of_le_of_lt (isSign_of_isDigit hd).2 (by decide)
    exact ⟨hlt, of_toNat_lt (P := fun c => c.isDigit = true → isBlank c = false) (by decide) hlt hd⟩
  | word hw hword =>
    have hlt := toNat_of_isWordPart (isWordPart_of_start hw)
    exact ⟨hlt, of_toNat_lt (P := fun c => isWordStart c = true → isBlank c = false) (by decide)
      hlt hw⟩
  | symbol hd hs => exact ⟨(symbol_apart hs).1, (symbol_apart hs).2.1⟩

theorem Extent.Of.ok (h : e.Of c rest) (pos : Position) : extent pos c rest = .ok e := by
  have hstart := h.start.1
  unfold extent
  cases h with
  | comment hd => exact if_pos hd
  | string hq hc =>
    have hdash : c ≠ '-' := by rw [hq]; decide
    rw [if_neg fun hd => hdash hd.1, if_pos hq, hc]
  | number hd hn =>
    have hapart : c ≠ '-' ∧ c ≠ Quoted.quote :=
      of_toNat_lt (P := fun c => c.isDigit = true → c ≠ '-' ∧ c ≠ Quoted.quote) (by decide)
        hstart hd
    rw [if_neg fun hd => hapart.1 hd.1, if_neg hapart.2, if_pos hd]
    dsimp only
    rw [hn]
  | word hw hword =>
    have hapart : c ≠ '-' ∧ c ≠ Quoted.quote ∧ ¬c.isDigit = true :=
      of_toNat_lt (P := fun c => isWordStart c = true →
        c ≠ '-' ∧ c ≠ Quoted.quote ∧ ¬c.isDigit = true) (by decide) hstart hw
    rw [if_neg fun hd => hapart.1 hd.1, if_neg hapart.2.1, if_neg hapart.2.2, if_pos hw, hword]
  | symbol hd hs =>
    obtain ⟨-, -, hquote, hdigit, hword⟩ := symbol_apart hs
    rw [if_neg hd, if_neg hquote, if_neg (by simp [hdigit]), if_neg (by simp [hword]), hs]

/-! ## Scans -/

theorem scanFrom_end (pos : Position) (h : cs.dropWhile isBlank = []) :
    ∃ p, scanFrom pos cs = ([⟨.endOfText, "", none, p⟩], none) := by
  rw [scanFrom.eq_def]
  dsimp only
  split
  · exact ⟨_, rfl⟩
  · next hcut =>
    rw [h] at hcut
    cases hcut

theorem scanFrom_token (pos : Position) (h : cs.dropWhile isBlank = c :: rest) (he : e.Of c rest) :
    let start := pos.after (cs.takeWhile isBlank)
    let lexeme := c :: rest.take e.more
    scanFrom pos cs = (⟨e.kind, String.ofList lexeme, e.literal, start⟩ ::
      (scanFrom (start.after lexeme) (rest.drop e.more)).1,
        (scanFrom (start.after lexeme) (rest.drop e.more)).2) := by
  intro start lexeme
  rw [scanFrom.eq_def]
  dsimp only
  split
  · next hcut =>
    rw [h] at hcut
    cases hcut
  · next hcut =>
    rw [h] at hcut
    cases hcut
    rw [he.ok]

/-- Blanks and a token at the start of a text, with the characters it takes set apart from those
behind it. -/
theorem scanFrom_append (pos : Position) {blanks more behind : List Char}
    (hb : ∀ d ∈ blanks, isBlank d = true) (he : e.Of c (more ++ behind))
    (hm : e.more = more.length) :
    let start := pos.after blanks
    let others := scanFrom (start.after (c :: more)) behind
    scanFrom pos (blanks ++ (c :: more ++ behind)) =
      (⟨e.kind, String.ofList (c :: more), e.literal, start⟩ :: others.1, others.2) := by
  have hblank : ¬isBlank c = true := by simp [he.start.2]
  have htake : (blanks ++ (c :: more ++ behind)).takeWhile isBlank = blanks := by
    rw [List.takeWhile_append_of_pos hb, List.cons_append, List.takeWhile_cons_of_neg hblank,
      List.append_nil]
  have hdrop : (blanks ++ (c :: more ++ behind)).dropWhile isBlank = c :: (more ++ behind) := by
    rw [List.dropWhile_append_of_pos hb, List.cons_append, List.dropWhile_cons_of_neg hblank]
  have hscan := scanFrom_token pos hdrop he
  rwa [htake, hm, List.take_left, List.drop_left] at hscan

/-- The token has been cut from a text in one of the forms. -/
inductive Formed : Token → Prop
  | of {c : Char} {rest : List Char} {e : Extent} {pos : Position} (h : e.Of c rest) :
    Formed ⟨e.kind, String.ofList (c :: rest.take e.more), e.literal, pos⟩

theorem formed_of_mem {t : Token} (ht : t ∈ (scanFrom pos cs).1) (hi : t.isEnd = false) :
    t.Formed := by
  fun_induction scanFrom pos cs with
  | case1 =>
    cases List.mem_singleton.mp ht
    cases hi
  | case2 => cases ht
  | case3 pos cs start c rest hcut e he lexeme others found hrest =>
    rename_i ih
    rcases List.mem_cons.mp ht with rfl | hm
    · exact .of (extent_of he)
    · exact ih (by rw [hrest]; exact hm)

end Token

end TableQuery
