import TableQuery.Proofs.Token.Extent

/-! # Strings are quoted texts

What is read as a string is what is written for it: a text of one line with its quotes doubled,
between quotes. So every text of one line can be written as a string, and in only one way. -/

namespace TableQuery

open Text

namespace Text.Quoted

/-- Behind the first quote, a text of one line is closed by the first quote that no other one
follows, if those inside it are doubled; nothing else is closed. -/
theorem close?_eq_some_iff {cs text : List Char} {size : Nat} :
    close? cs = some (text, size) ↔
      '\n' ∉ text ∧ size = (doubled text).length + 1 ∧
        ∃ following, following.head? ≠ some quote ∧ cs = doubled text ++ quote :: following := by
  constructor
  · intro h
    induction cs using close?.induct generalizing text size with
    | case1 | case2 => simp [close?] at h
    | case3 rest ih =>
      simp only [close?, Option.map_eq_some_iff] at h
      obtain ⟨⟨inner, n⟩, hi, he⟩ := h
      cases he
      obtain ⟨hline, rfl, following, hf, rfl⟩ := ih hi
      refine ⟨?_, by simp [doubled], following, hf, by simp [doubled, quote]⟩
      simpa [quote] using hline
    | case4 rest hr =>
      simp only [close?, Option.some.injEq, Prod.mk.injEq] at h
      obtain ⟨rfl, rfl⟩ := h
      refine ⟨by simp, rfl, rest, fun hf => ?_, rfl⟩
      obtain ⟨more, hmore⟩ := List.head?_eq_some_iff.mp hf
      exact hr more hmore
    | case5 c rest hline hdoubled hquote ih =>
      simp only [close?, Option.map_eq_some_iff] at h
      obtain ⟨⟨inner, n⟩, hi, he⟩ := h
      cases he
      have hc : c ≠ quote := hquote
      obtain ⟨hinner, rfl, following, hf, rfl⟩ := ih hi
      refine ⟨?_, by simp [doubled, hc], following, hf, by simp [doubled, hc]⟩
      exact fun hm => (List.mem_cons.mp hm).elim (fun he => hline he.symm) hinner
  · rintro ⟨hline, rfl, following, hf, rfl⟩
    induction text with
    | nil =>
      refine close?.eq_4 following fun more he => hf ?_
      rw [he]
      rfl
    | cons c rest ih =>
      obtain ⟨hc, hrest⟩ := not_or.mp (mt List.mem_cons.mpr hline)
      by_cases hquote : c = quote
      · subst hquote
        have hdoubled : doubled (quote :: rest) = quote :: quote :: doubled rest := if_pos rfl
        refine (congrArg (fun cs => close? (cs ++ quote :: following)) hdoubled).trans ?_
        refine (close?.eq_3 (doubled rest ++ quote :: following)).trans ?_
        rw [ih hrest]
        rfl
      · rw [doubled, if_neg hquote, List.cons_append,
          close?.eq_5 _ _ (Ne.symm hc) (fun _ he _ => hquote he) hquote, ih hrest]
        rfl

end Text.Quoted

namespace Token

/-- What is cut as a string is a quoted text of one line. -/
theorem Formed.encoded {t : Token} (h : t.Formed) (hk : t.kind = .string) :
    ∃ text : List Char, '\n' ∉ text ∧ t.literal = some (.text (String.ofList text)) ∧
      t.lexeme = String.ofList (Quoted.encode text) := by
  obtain @⟨c, rest, e, pos, he⟩ := h
  cases he with
  | comment _ => cases hk
  | @string text size hq hc =>
    subst hq
    obtain ⟨hline, rfl, following, -, rfl⟩ := Quoted.close?_eq_some_iff.mp hc
    refine ⟨text, hline, rfl, congrArg String.ofList ?_⟩
    simp [Quoted.encode, List.take_append]
  | number _ _ => cases hk
  | @word word _ _ => rcases wordKind_cases word with ⟨k, hw⟩ | hw <;> simp [hw] at hk
  | symbol _ hs =>
    unfold symbolExtent? at hs
    split at hs <;> cases hs <;> cases hk

theorem scan_encoded {s following : String} (hl : '\n' ∉ s.toList)
    (hf : following.toList.head? ≠ some Quoted.quote) :
    scan (String.ofList (Quoted.encode s.toList) ++ following) =
      (⟨.string, String.ofList (Quoted.encode s.toList), some (.text s), .start⟩ ::
        (scanFrom (Position.start.after (Quoted.encode s.toList)) following.toList).1,
          (scanFrom (Position.start.after (Quoted.encode s.toList)) following.toList).2) := by
  have hclose : Quoted.close? ((Quoted.doubled s.toList ++ [Quoted.quote]) ++ following.toList) =
      some (s.toList, (Quoted.doubled s.toList).length + 1) := by
    rw [List.append_assoc, List.singleton_append]
    exact Quoted.close?_eq_some_iff.mpr ⟨hl, rfl, following.toList, hf, rfl⟩
  have hscan := scanFrom_append .start (List.forall_mem_nil _) (.string rfl hclose) (by simp)
  rw [String.ofList_toList] at hscan
  rwa [scan, String.toList_append, String.toList_ofList]

/-- A text of one line, in quotes and with its quotes doubled, is scanned as the string of that text
wherever no quote follows; and every string of a scan is such a text. -/
theorem strings_are_encoded_lines :
    (∀ s following : String, '\n' ∉ s.toList → following.toList.head? ≠ some Quoted.quote →
      let encoded := Quoted.encode s.toList
      let others := scanFrom (Position.start.after encoded) following.toList
      scan (String.ofList encoded ++ following) =
        (⟨.string, String.ofList encoded, some (.text s), .start⟩ :: others.1, others.2)) ∧
    ∀ text : String, ∀ t ∈ (scan text).1, t.kind = .string →
      ∃ s : String, '\n' ∉ s.toList ∧ t.literal = some (.text s) ∧
        t.lexeme = String.ofList (Quoted.encode s.toList) := by
  refine ⟨fun s following hl hf => scan_encoded hl hf, fun text t ht hk => ?_⟩
  have hinside : t.isEnd = false := by simp [isEnd, hk]
  obtain ⟨s, hline, hliteral, hlexeme⟩ := (formed_of_mem ht hinside).encoded hk
  exact ⟨String.ofList s, by simpa using hline, hliteral, by simpa using hlexeme⟩

theorem quotes_at_both_ends_encoded :
    let encoded : Token := ⟨.string, "'''a'''", some (.text "'a'"), ⟨1, 1⟩⟩
    scan "'''a''',a" = ([encoded, ⟨.comma, ",", none, ⟨1, 8⟩⟩,
      ⟨.identifier, "a", none, ⟨1, 9⟩⟩, ⟨.endOfText, "", none, ⟨1, 10⟩⟩], none) ∧
    ∃ s : String, '\n' ∉ s.toList ∧ encoded.literal = some (.text s) ∧
      encoded.lexeme = String.ofList (Quoted.encode s.toList) := by
  intro encoded
  have hscan := strings_are_encoded_lines.1 "'a'" ",a" (by decide) (by decide)
  have hrun : scan "'''a''',a" = ([encoded, ⟨.comma, ",", none, ⟨1, 8⟩⟩,
      ⟨.identifier, "a", none, ⟨1, 9⟩⟩, ⟨.endOfText, "", none, ⟨1, 10⟩⟩], none) :=
    hscan.trans (by cbv)
  exact ⟨hrun, strings_are_encoded_lines.2 _ encoded (by rw [hrun]; exact List.mem_cons_self) rfl⟩

end Token

end TableQuery
