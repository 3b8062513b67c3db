import TableQuery.Proofs.Query.Layout
import TableQuery.Proofs.Token.Extent

/-! # Words of lower-cased texts

Lower-casing knows nothing of tokens, but it does not move the borders between them. So the words of
the lower-cased text are the words of the text, lower-cased one by one. That leaves out capital
sigmas: which form one of them takes may depend on what stands behind the closing quote. -/

namespace TableQuery

open Text

namespace Token

/-- The word that a word becomes. -/
def lowered (t : Token) : Token :=
  let lexeme := String.ofList (t.lexeme.toList.flatMap lowerChar)
  match t.kind, t.literal with
  | .keyword _, _ | .identifier, _ => ⟨(wordKind lexeme).1, lexeme, (wordKind lexeme).2, t.pos⟩
  | .string, some (.text s) =>
    ⟨.string, lexeme, some (.text (String.ofList (s.toList.flatMap lowerChar))), t.pos⟩
  | _, _ => t

/-! ## One token -/

/-- A token of a text and one of the lower-cased text, with what stands behind them. Comments need
not have anything in common. -/
structure Extent.Lowers (c : Char) (rest : List Char) (e : Extent) (c' : Char) (rest' : List Char)
    (e' : Extent) : Prop where
  behind : Lowered (rest.drop e.more) (rest'.drop e'.more)
  comment : e.kind = .comment ↔ e'.kind = .comment
  word : e.kind ≠ .comment →
    (⟨e'.kind, String.ofList (c' :: rest'.take e'.more), e'.literal, .start⟩ : Token) =
      lowered ⟨e.kind, String.ofList (c :: rest.take e.more), e.literal, .start⟩

variable {pos pos' : Position} {c : Char} {rest rest' ls : List Char} {e : Extent}

theorem lowered_comment (h : Lowered rest rest') (hr : rest.head? = some '-') :
    (commentExtent rest).Lowers '-' rest '-' rest' (commentExtent rest') := by
  obtain ⟨more, rfl⟩ := List.head?_eq_some_iff.mp hr
  obtain ⟨more', hmore, rfl⟩ := h.cons_fixed (lowerForms_sign (by decide))
  have hline : ∀ c, ¬IsSign c → (c != '\n') = true := fun c hc =>
    bne_iff_ne.mpr fun he => hc (by rw [he]; decide)
  obtain ⟨-, hbehind⟩ := hmore.takeWhile_signs hline
  refine ⟨?_, by simp [commentExtent], fun hk => absurd rfl hk⟩
  simp only [commentExtent, List.drop_succ_cons, List.drop_zero, drop_takeWhile]
  exact hbehind

/-! ### Strings -/

theorem close?_append {form : List Char} (hf : ∀ d ∈ form, d ≠ '\n' ∧ d ≠ Quoted.quote)
    (cs : List Char) :
    Quoted.close? (form ++ cs) =
      (Quoted.close? cs).map fun (text, size) => (form ++ text, size + form.length) := by
  induction form with
  | nil =>
    rw [List.nil_append]
    cases Quoted.close? cs <;> rfl
  | cons d form ih =>
    obtain ⟨⟨hline, hquote⟩, hform⟩ := List.forall_mem_cons.mp hf
    rw [List.cons_append, Quoted.close?.eq_5 _ _ hline (fun _ he _ => hquote he) hquote, ih hform,
      Option.map_map]
    rfl

/-- A string ends at the same quote, and its text is lower-cased. -/
theorem lowered_close? {text : List Char} {size : Nat} (h : Lowered rest rest')
    (hc : Quoted.close? rest = some (text, size)) (hs : 'Σ' ∉ rest.take size) :
    ∃ size', Quoted.close? rest' = some (text.flatMap lowerChar, size') ∧
      rest'.take size' = (rest.take size).flatMap lowerChar ∧
      Lowered (rest.drop size) (rest'.drop size') := by
  have hquote : lowerForms Quoted.quote = [[Quoted.quote]] := lowerForms_sign (by decide)
  have hflat : lowerChar Quoted.quote = [Quoted.quote] := by decide
  induction rest using Quoted.close?.induct generalizing rest' text size with
  | case1 | case2 => simp [Quoted.close?] at hc
  | case3 rest ih =>
    -- a quote that is written twice
    obtain ⟨rest₁, h₁, rfl⟩ := h.cons_fixed hquote
    obtain ⟨rest₂, h₂, rfl⟩ := h₁.cons_fixed hquote
    simp only [Quoted.close?, Option.map_eq_some_iff] at hc
    obtain ⟨⟨inner, n⟩, hinner, he⟩ := hc
    cases he
    have hs : 'Σ' ∉ rest.take n := by
      intro hm
      exact hs (List.mem_cons_of_mem _ (List.mem_cons_of_mem _ hm))
    obtain ⟨n', hclose, htake, hdrop⟩ := ih h₂ hinner hs
    refine ⟨n' + 2, ?_, ?_, hdrop⟩
    · refine (Quoted.close?.eq_3 rest₂).trans ?_
      rw [hclose, List.flatMap_cons, hflat]
      rfl
    · rw [List.take_succ_cons, List.take_succ_cons, htake]
      rfl
  | case4 tail hr =>
    obtain ⟨tail₁, h₁, rfl⟩ := h.cons_fixed hquote
    simp only [Quoted.close?, Option.some.injEq, Prod.mk.injEq] at hc
    obtain ⟨rfl, rfl⟩ := hc
    refine ⟨1, ?_, rfl, h₁⟩
    refine Quoted.close?.eq_4 _ fun more he => ?_
    have hfirst : tail.head? = some Quoted.quote :=
      (h₁.head?_sign (by decide)).mp (by rw [he]; rfl)
    obtain ⟨more', hmore⟩ := List.head?_eq_some_iff.mp hfirst
    exact hr more' hmore
  | case5 c rest hline hdoubled hplain ih =>
    simp only [Quoted.close?, Option.map_eq_some_iff] at hc
    obtain ⟨⟨inner, n⟩, hinner, he⟩ := hc
    cases he
    rw [List.take_succ_cons, List.mem_cons, not_or] at hs
    obtain ⟨form, rest₁, hf, h₁, rfl⟩ := h.cons_inv
    have hform : form = lowerChar c := by
      rw [lowerForms, if_neg (Ne.symm hs.1)] at hf
      exact List.mem_singleton.mp hf
    have hinside : ∀ d ∈ form, d ≠ '\n' ∧ d ≠ Quoted.quote := by
      refine fun d hd => ⟨?_, ?_⟩
      · rintro rfl
        exact hline (eq_of_sign hf hd (by decide)).symm
      · rintro rfl
        exact hplain (eq_of_sign hf hd (by decide)).symm
    obtain ⟨n', hclose, htake, hdrop⟩ := ih h₁ hinner hs.2
    refine ⟨form.length + n', ?_, ?_, ?_⟩
    · rw [close?_append hinside, hclose, Option.map_some, List.flatMap_cons, hform, Nat.add_comm]
    · rw [List.take_length_add_append, htake, List.take_succ_cons, List.flatMap_cons, hform]
    · rw [List.drop_length_add_append]
      exact hdrop

/-! ### Numbers -/

theorem isDigit_eq_false {c : Char} (h : ¬IsSign c) : c.isDigit = false :=
  Bool.eq_false_iff.mpr fun hd => h (isSign_of_isDigit hd)

theorem lowered_digits (h : Lowered rest rest') :
    rest'.takeWhile Char.isDigit = rest.takeWhile Char.isDigit ∧
      Lowered (rest.dropWhile Char.isDigit) (rest'.dropWhile Char.isDigit) := by
  obtain ⟨hdigits, hbehind⟩ := h.takeWhile_signs fun _ => isDigit_eq_false
  refine ⟨hdigits.eq_of_fixed fun c hc => ?_, hbehind⟩
  exact lowerForms_sign (isSign_of_isDigit (List.mem_takeWhile_imp hc))

/-- A number has as many characters as before. -/
theorem lowered_numberSize (h : Lowered rest rest') : numberSize rest' = numberSize rest := by
  obtain ⟨hdigits, hbehind⟩ := lowered_digits h
  by_cases hpoint : (rest.dropWhile Char.isDigit).head? = some '.'
  · obtain ⟨more, hmore⟩ := List.head?_eq_some_iff.mp hpoint
    rw [hmore] at hbehind
    obtain ⟨more', hfraction, hmore'⟩ := hbehind.cons_fixed (lowerForms_sign (by decide))
    rw [numberSize_point hmore, numberSize_point hmore', hdigits, (lowered_digits hfraction).1]
  · have hpoint' : (rest'.dropWhile Char.isDigit).head? ≠ some '.' := by
      rwa [Ne, hbehind.head?_sign (by decide)]
    rw [numberSize_whole hpoint, numberSize_whole hpoint', hdigits]

theorem lowered_number (hc : c.isDigit = true) (h : Lowered rest rest') :
    rest'.take (numberSize rest') = rest.take (numberSize rest) ∧
      Lowered (rest.drop (numberSize rest)) (rest'.drop (numberSize rest')) := by
  obtain ⟨hle, hplain⟩ := plain_numberSize hc rest
  rw [lowered_numberSize h]
  refine h.take_fixed hle fun d hd => lowerForms_sign ?_
  have hmem : d ∈ c :: rest.take (numberSize rest) := List.mem_cons_of_mem _ hd
  generalize c :: rest.take (numberSize rest) = lexeme at hplain hmem
  cases hplain with
  | whole _ hdigits => exact isSign_of_isDigit (hdigits d hmem)
  | pointed _ hdigits hfraction =>
    rcases List.mem_append.mp hmem with hm | hm
    · exact isSign_of_isDigit (hdigits d hm)
    · rcases List.mem_cons.mp hm with rfl | hm
      · decide
      · exact isSign_of_isDigit (hfraction d hm)

/-! ### Words -/

/-- What a text without fault goes on with. -/
def Plainly (cs : List Char) : Prop := ∀ d, cs.head? = some d → isBlank d = true ∨ d.toNat < 0x80

theorem isWordPart_toLower (d : Char) : isWordPart d.toLower = isWordPart d := by
  by_cases hascii : d.toNat < 0x80
  · exact of_toNat_lt (P := fun d => isWordPart d.toLower = isWordPart d) (by decide) hascii
  · rw [Char.toLower_eq_of_not_isUpper fun hu => hascii (toNat_of_isWordPart ?_)]
    simp [isWordPart, Char.isAlphanum, Char.isAlpha, hu]

theorem lowered_word (h : Lowered rest rest') (hnext : Plainly (rest.dropWhile isWordPart)) :
    Lowered (rest.takeWhile isWordPart) (rest'.takeWhile isWordPart) ∧
      Lowered (rest.dropWhile isWordPart) (rest'.dropWhile isWordPart) := by
  refine h.takeWhile (fun d hd form hf first hm => ?_) fun d hd hhead form hf first hm => ?_
  · rw [lowerForms_ascii (toNat_of_isWordPart hd), List.mem_singleton] at hf
    cases hf
    rw [List.mem_singleton.mp hm, isWordPart_toLower, hd]
  · rcases hnext d hhead with hblank | hascii
    · rw [lowerForms_blank hblank, List.mem_singleton] at hf
      cases hf
      cases hm
      exact hd
    · rw [lowerForms_ascii hascii, List.mem_singleton] at hf
      cases hf
      cases hm
      rw [isWordPart_toLower, hd]

/-! ### Operators and punctuation -/

theorem lowered_not_sign {d : Char} (h : Lowered rest rest') (hd : IsSign d)
    (hn : ∀ more, rest = d :: more → False) (more' : List Char) : rest' ≠ d :: more' := by
  intro he
  obtain ⟨more, hmore⟩ := List.head?_eq_some_iff.mp ((h.head?_sign hd).mp (by rw [he]; rfl))
  exact hn more hmore

/-- Only an equals sign or an angle bracket may belong to the character in front of it. -/
theorem lowered_symbolExtent? (h : Lowered rest rest') (hs : symbolExtent? c rest = some e) :
    symbolExtent? c rest' = some e ∧ lowerForms c = [[c]] ∧
      ∀ d ∈ rest.take e.more, lowerForms d = [[d]] := by
  have hequal : lowerForms '=' = [['=']] := lowerForms_sign (by decide)
  have hgreater : lowerForms '>' = [['>']] := lowerForms_sign (by decide)
  unfold symbolExtent? at hs
  split at hs <;> cases hs
  case h_14 =>
    obtain ⟨_, -, rfl⟩ := h.cons_fixed hequal
    exact ⟨rfl, by decide, List.forall_mem_singleton.mpr hequal⟩
  case h_15 =>
    obtain ⟨_, -, rfl⟩ := h.cons_fixed hgreater
    exact ⟨rfl, by decide, List.forall_mem_singleton.mpr hgreater⟩
  case h_16 =>
    rename_i hne hng
    refine ⟨symbolExtent?.eq_16 rest' ?_ ?_, by decide, by simp⟩
    · exact lowered_not_sign h (by decide) hne
    · exact lowered_not_sign h (by decide) hng
  case h_17 =>
    obtain ⟨_, -, rfl⟩ := h.cons_fixed hequal
    exact ⟨rfl, by decide, List.forall_mem_singleton.mpr hequal⟩
  case h_18 =>
    rename_i hne
    refine ⟨symbolExtent?.eq_18 rest' ?_, by decide, by simp⟩
    exact lowered_not_sign h (by decide) hne
  all_goals exact ⟨rfl, by decide, by simp⟩

/-! ### All tokens -/

theorem toLower_of_fixed (hascii : c.toNat < 0x80) (h : lowerForms c = [[c]]) : c.toLower = c := by
  rw [lowerForms_ascii hascii] at h
  exact (List.cons.inj (List.singleton_inj.mp h)).1

/-- What a word becomes is a word. -/
theorem lowered_wordKind (word : String) (p : Position) :
    lowered ⟨(wordKind word).1, word, (wordKind word).2, p⟩ =
      ⟨(wordKind (String.ofList (word.toList.flatMap lowerChar))).1,
        String.ofList (word.toList.flatMap lowerChar),
        (wordKind (String.ofList (word.toList.flatMap lowerChar))).2, p⟩ := by
  have hkind := wordKind_cases word
  generalize wordKind word = kind at hkind
  obtain ⟨kind, literal⟩ := kind
  rcases hkind with ⟨k, rfl⟩ | rfl <;> rfl

/-- Operators and punctuation stay what they are. -/
theorem lowered_symbol (h : symbolExtent? c rest = some e) (lexeme : String) (p : Position) :
    lowered ⟨e.kind, lexeme, e.literal, p⟩ = ⟨e.kind, lexeme, e.literal, p⟩ := by
  unfold symbolExtent? at h
  split at h <;> cases h <;> rfl

/-- Where the text has a token, the lower-cased text has the token that it becomes. -/
theorem Extent.Of.lowers (h : e.Of c rest) (hl : Lowered (c :: rest) ls)
    (hnext : Plainly (rest.drop e.more)) (hs : e.kind ≠ .comment → 'Σ' ∉ c :: rest.take e.more) :
    ∃ c' rest' e', ls = c' :: rest' ∧ e'.Of c' rest' ∧ e.Lowers c rest c' rest' e' := by
  have hascii := h.start.1
  obtain ⟨rest', hr, rfl⟩ := hl.cons_fixed (lowerForms_ascii hascii)
  cases h with
  | comment hd =>
    obtain ⟨rfl, hrest⟩ := hd
    exact ⟨'-', rest', _, rfl, .comment ⟨rfl, (hr.head?_sign (by decide)).mpr hrest⟩,
      lowered_comment hr hrest⟩
  | @string text size hq hc =>
    subst hq
    have hfree : 'Σ' ∉ rest.take size := fun hm => hs (by simp) (List.mem_cons_of_mem _ hm)
    obtain ⟨size', hclose, htake, hbehind⟩ := lowered_close? hr hc hfree
    refine ⟨_, rest', _, rfl, .string rfl hclose, hbehind, by simp, fun _ => ?_⟩
    simp only [lowered, String.toList_ofList, htake]
    rfl
  | @number n hd hn =>
    rw [toLower_of_fixed hascii (lowerForms_sign (isSign_of_isDigit hd))]
    obtain ⟨htake, hbehind⟩ := lowered_number hd hr
    refine ⟨c, rest', _, rfl, .number hd (by rwa [htake]), hbehind, by simp, fun _ => ?_⟩
    rw [htake]
    rfl
  | @word word hw hword =>
    have hstart : isWordStart c.toLower = true :=
      of_toNat_lt (P := fun c => isWordStart c = true → isWordStart c.toLower = true) (by decide)
        hascii hw
    have hne (word : String) : (wordKind word).1 ≠ .comment := wordKind_ne_comment word
    dsimp only at hnext hs
    rw [drop_takeWhile] at hnext
    obtain ⟨htail, hbehind⟩ := lowered_word hr hnext
    have hlexeme : c.toLower :: rest'.takeWhile isWordPart =
        (c :: rest.takeWhile isWordPart).flatMap lowerChar := by
      have hfree := hs (hne word)
      rw [take_takeWhile] at hfree
      have hform : [c.toLower] ∈ lowerForms c := by
        rw [lowerForms_ascii hascii]
        exact List.mem_singleton.mpr rfl
      exact (Lowered.cons hform htail).eq_flatMap hfree
    refine ⟨_, rest', _, rfl, .word hstart rfl, ?_, by simp [hne], fun _ => ?_⟩
    · dsimp only
      rwa [drop_takeWhile, drop_takeWhile]
    · dsimp only
      rw [take_takeWhile, take_takeWhile, hlexeme, ← hword, lowered_wordKind, hword, String.toList_ofList]
  | symbol hd hsymbol =>
    obtain ⟨hsymbol', hc, hfixed⟩ := lowered_symbolExtent? hr hsymbol
    obtain ⟨htake, hbehind⟩ := hr.take_fixed (symbolExtent?_fits hsymbol).more hfixed
    have hd' : ¬(c = '-' ∧ rest'.head? = some '-') := by rwa [hr.head?_sign (by decide)]
    rw [toLower_of_fixed hascii hc]
    refine ⟨c, rest', e, rfl, .symbol hd' hsymbol', hbehind, .rfl, fun _ => ?_⟩
    rw [htake, lowered_symbol hsymbol]

/-! ## Texts -/

variable {cs : List Char}

theorem words_cons (t : Token) (tokens : List Token) :
    words (t :: tokens) =
      if t.kind = .comment then words tokens else t.unplaced :: words tokens := by
  by_cases h : t.kind = .comment <;> simp [words, h]

/-- A text without fault begins with a blank or with a token. -/
theorem plainly_of_scanFrom (h : (scanFrom pos cs).2 = none) : Plainly cs := by
  intro d hd
  obtain ⟨more, rfl⟩ := List.head?_eq_some_iff.mp hd
  cases hblank : isBlank d with
  | true => exact .inl rfl
  | false =>
    have hcut : (d :: more).dropWhile isBlank = d :: more :=
      List.dropWhile_cons_of_neg (by simp [hblank])
    rw [scanFrom.eq_def] at h
    dsimp only at h
    split at h
    · next hnil =>
      rw [hcut] at hnil
      cases hnil
    · next hcons =>
      rw [hcut] at hcons
      cases hcons
      split at h
      · cases h
      · next he => exact .inr (extent_of he).start.1

theorem lowered_blanks (h : Lowered cs ls)
    (hnext : ∀ c, (cs.dropWhile isBlank).head? = some c → c.toNat < 0x80) :
    Lowered (cs.dropWhile isBlank) (ls.dropWhile isBlank) := by
  refine (h.takeWhile (fun c hc form hf d hd => ?_) fun c hc hhead form hf d hd => ?_).2
  · rw [lowerForms_blank hc, List.mem_singleton] at hf
    cases hf
    rwa [List.mem_singleton.mp hd]
  · have hascii := hnext c hhead
    rw [lowerForms_ascii hascii, List.mem_singleton] at hf
    cases hf
    cases hd
    exact of_toNat_lt (P := fun c => isBlank c = false → isBlank c.toLower = false) (by decide)
      hascii hc

theorem scanFrom_lowered (h : Lowered cs ls) (hok : (scanFrom pos cs).2 = none)
    (hs : ∀ t ∈ (scanFrom pos cs).1, t.kind ≠ .comment → 'Σ' ∉ t.lexeme.toList) :
    (scanFrom pos' ls).2 = none ∧
      words (scanFrom pos' ls).1 = (words (scanFrom pos cs).1).map lowered := by
  fun_induction scanFrom pos cs generalizing pos' ls with
  | case1 =>
    rename_i hcut
    have hlowered := lowered_blanks h (by simp [hcut])
    rw [hcut] at hlowered
    have hend : ls.dropWhile isBlank = [] := by
      generalize ls.dropWhile isBlank = rest at hlowered
      cases hlowered
      rfl
    obtain ⟨p, hscan⟩ := scanFrom_end pos' hend
    rw [hscan]
    exact ⟨rfl, rfl⟩
  | case2 => cases hok
  | case3 =>
    rename_i pos cs start c rest hcut e he lexeme others found hrest ih
    rw [hrest] at ih
    dsimp only at hok hs ih
    obtain ⟨hfirst, hothers⟩ := List.forall_mem_cons.mp hs
    have hof := extent_of he
    have hlowered := lowered_blanks h (by simp [hcut, hof.start])
    rw [hcut] at hlowered
    have hplainly : Plainly (rest.drop e.more) := plainly_of_scanFrom (by rw [hrest]; exact hok)
    obtain ⟨c', rest', e', hcut', hof', hbehind, hcomment, hword⟩ :=
      hof.lowers hlowered hplainly (by simpa [lexeme] using hfirst)
    have hscan := scanFrom_token pos' hcut' hof'
    obtain ⟨hnone, hwords⟩ := ih hbehind hok hothers
    rw [hscan]
    refine ⟨hnone, ?_⟩
    rw [words_cons, words_cons]
    by_cases hk : e.kind = .comment
    · rw [if_pos hk, if_pos (hcomment.mp hk)]
      exact hwords
    · rw [if_neg hk, if_neg fun hk' => hk (hcomment.mpr hk'), List.map_cons, hwords]
      exact congrArg (· :: _) (hword hk)

theorem wordsOf_ok {text : String} {ws : List Token} :
    wordsOf text = .ok ws ↔ (scan text).2 = none ∧ words (scan text).1 = ws := by
  unfold wordsOf scan?
  obtain ⟨tokens, _ | fault⟩ := scan text
  · exact ⟨fun h => ⟨rfl, Except.ok.inj h⟩, fun h => congrArg Except.ok h.2⟩
  · exact iff_of_false (by rintro ⟨⟩) fun h => Option.some_ne_none fault h.1

/-- The words of the lower-cased text are the words of the text, lower-cased one by one. -/
theorem wordsOf_lowercase {text : String} {ws : List Token} (h : wordsOf text = .ok ws)
    (hs : ∀ t ∈ ws, 'Σ' ∉ t.lexeme.toList) : wordsOf (lowercase text) = .ok (ws.map lowered) := by
  obtain ⟨hnone, hwords⟩ := wordsOf_ok.mp h
  have hfree : ∀ t ∈ (scan text).1, t.kind ≠ .comment → 'Σ' ∉ t.lexeme.toList := by
    intro t ht hk
    refine hs t.unplaced (hwords ▸ ?_)
    exact List.mem_map_of_mem (List.mem_filter.mpr ⟨ht, bne_iff_ne.mpr hk⟩)
  have hlowered : Lowered text.toList (lowercase text).toList := by
    rw [lowercase, String.toList_ofList]
    exact lowered_lowerAfter [] text.toList
  rw [← hwords]
  exact wordsOf_ok.mpr (scanFrom_lowered hlowered hnone hfree)

end Token

end TableQuery
