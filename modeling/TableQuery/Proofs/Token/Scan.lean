import Mathlib.Data.List.TakeDrop
import Mathlib.Data.List.TakeWhile
import TableQuery.Token.Scan

/-! # Tokens lie in the text

The characters that a token takes are there, each run of characters that is taken for a number reads
as one, and a scan ends with a fault only where a string is not closed or a character begins no
token. -/

namespace TableQuery

/-! ## Numbers -/

namespace Number

/-- Digits, or digits around a point. -/
inductive Plain : List Char → Prop where
  | whole {digits : List Char} (hn : digits ≠ []) (hd : ∀ c ∈ digits, c.isDigit) : Plain digits
  | pointed {digits fraction : List Char} (hn : digits ≠ []) (hd : ∀ c ∈ digits, c.isDigit)
    (hf : ∀ c ∈ fraction, c.isDigit) : Plain (digits ++ '.' :: fraction)

theorem span_digits {digits : List Char} (hd : ∀ c ∈ digits, c.isDigit) (rest : List Char)
    (hr : ∀ c ∈ rest.head?, c.isDigit = false) :
    (digits ++ rest).span Char.isDigit = (digits, rest) := by
  rw [List.span_eq_takeWhile_dropWhile, List.takeWhile_append_of_pos hd,
    List.dropWhile_append_of_pos hd]
  cases rest with
  | nil => simp
  | cons c more =>
    have hc : c.isDigit = false := hr c rfl
    simp [hc]

theorem Plain.ofDecimalText? {cs : List Char} (h : Plain cs) (negative : Bool) :
    (ofDecimalText? negative cs).isSome := by
  unfold Number.ofDecimalText?
  cases h with
  | whole hn hd =>
    have hspan := span_digits hd [] nofun
    rw [List.append_nil] at hspan
    rw [hspan]
    simp [splitFraction, hn, exponentOf?]
  | @pointed digits fraction hn hd hf =>
    have hspan := span_digits hd ('.' :: fraction) (by simp)
    have hfraction := span_digits hf [] nofun
    rw [List.append_nil] at hfraction
    rw [hspan]
    simp only [splitFraction, hfraction]
    simp [hn, exponentOf?]

/-- A text that begins with a digit has no sign. -/
theorem splitSign_digit {c : Char} (rest : List Char) (hc : c.isDigit) :
    splitSign (c :: rest) = (false, c :: rest) := by
  unfold splitSign
  split
  · next heq =>
    cases heq
    exact absurd hc (by decide)
  · next heq =>
    cases heq
    exact absurd hc (by decide)
  · rfl

theorem Plain.head {cs : List Char} (h : Plain cs) :
    ∃ c rest, cs = c :: rest ∧ c.isDigit := by
  cases h with
  | whole hn hd =>
    obtain ⟨c, rest, rfl⟩ := List.exists_cons_of_ne_nil hn
    exact ⟨c, rest, rfl, hd c List.mem_cons_self⟩
  | pointed hn hd hf =>
    obtain ⟨c, rest, rfl⟩ := List.exists_cons_of_ne_nil hn
    exact ⟨c, _, rfl, hd c List.mem_cons_self⟩

theorem Plain.ofText? {cs : List Char} (h : Plain cs) : (ofText? (String.ofList cs)).isSome := by
  have hd := h.ofDecimalText? false
  obtain ⟨c, rest, rfl, hc⟩ := h.head
  unfold Number.ofText?
  rw [String.toList_ofList, splitSign_digit rest hc]
  dsimp only
  split
  · rfl
  · split
    · rfl
    · exact hd

end Number

/-! ## Extents -/

namespace Text.Quoted

theorem close?_le {cs text : List Char} {size : Nat} (h : close? cs = some (text, size)) :
    size ≤ cs.length := by
  induction cs using close?.induct generalizing text size with
  | case1 | case2 => simp [close?] at h
  | case3 rest ih =>
    simp only [close?, Option.map_eq_some_iff] at h
    obtain ⟨⟨inner, n⟩, hi, he⟩ := h
    cases he
    have := ih hi
    simp only [List.length_cons]
    omega
  | case4 rest hr =>
    simp only [close?, Option.some.injEq, Prod.mk.injEq] at h
    simp [← h.2]
  | case5 c rest hline hdoubled hquote ih =>
    simp only [close?, Option.map_eq_some_iff] at h
    obtain ⟨⟨inner, n⟩, hi, he⟩ := h
    cases he
    have := ih hi
    simp only [List.length_cons]
    omega

end Text.Quoted

namespace Token

/-- A token takes characters that are there; a comment's first two are dashes. -/
structure Extent.Fits (c : Char) (rest : List Char) (e : Extent) : Prop where
  more : e.more ≤ rest.length
  comment : e.kind = .comment → ∃ text, c :: rest.take e.more = '-' :: '-' :: text ∧
    e.literal = some (.text (String.ofList text))

/-- What is taken for a number is one. -/
theorem plain_numberSize {c : Char} (hc : c.isDigit) (rest : List Char) :
    numberSize rest ≤ rest.length ∧ Number.Plain (c :: rest.take (numberSize rest)) := by
  have hsplit := List.takeWhile_append_dropWhile (p := Char.isDigit) (l := rest)
  have hdigits : ∀ d ∈ c :: rest.takeWhile Char.isDigit, d.isDigit :=
    List.forall_mem_cons.mpr ⟨hc, fun d hd => List.mem_takeWhile_imp hd⟩
  have hwhole : ∀ size, size = (rest.takeWhile Char.isDigit).length →
      size ≤ rest.length ∧ Number.Plain (c :: rest.take size) := by
    rintro size rfl
    have hstart := List.takeWhile_prefix (l := rest) Char.isDigit
    refine ⟨hstart.length_le, ?_⟩
    rw [← List.prefix_iff_eq_take.mp hstart]
    exact .whole (List.cons_ne_nil c _) hdigits
  unfold numberSize
  dsimp only
  split
  · next d more hrest =>
    split
    · have hfraction := List.takeWhile_append_dropWhile (p := Char.isDigit) (l := d :: more)
      have hpoint : rest =
          (rest.takeWhile Char.isDigit ++ '.' :: (d :: more).takeWhile Char.isDigit) ++
            (d :: more).dropWhile Char.isDigit := by
        rw [List.append_assoc, List.cons_append, hfraction, ← hrest, hsplit]
      have hlength : (rest.takeWhile Char.isDigit ++
          '.' :: (d :: more).takeWhile Char.isDigit).length =
            (rest.takeWhile Char.isDigit).length + 1 +
              ((d :: more).takeWhile Char.isDigit).length := by
        rw [List.length_append, List.length_cons]
        omega
      have htake := List.prefix_iff_eq_take.mp ⟨_, hpoint.symm⟩
      refine ⟨?_, ?_⟩
      · rw [← hlength]
        exact List.IsPrefix.length_le ⟨_, hpoint.symm⟩
      · rw [← hlength, ← htake]
        exact .pointed (List.cons_ne_nil c _) hdigits fun d hd => List.mem_takeWhile_imp hd
    · exact hwhole _ rfl
  · exact hwhole _ rfl

theorem wordKind_ne_comment (word : String) : (wordKind word).1 ≠ .comment := by
  unfold wordKind
  split <;> nofun

theorem symbolExtent?_fits {c : Char} {rest : List Char} {e : Extent}
    (h : symbolExtent? c rest = some e) : e.Fits c rest := by
  unfold symbolExtent? at h
  split at h <;> cases h
  all_goals exact ⟨by simp, nofun⟩

theorem commentExtent_fits {rest : List Char} (hr : rest.head? = some '-') :
    (commentExtent rest).Fits '-' rest := by
  obtain ⟨more, rfl⟩ := List.head?_eq_some_iff.mp hr
  have hstart := List.takeWhile_prefix (l := more) (· != '\n')
  refine ⟨?_, fun _ => ⟨more.takeWhile (· != '\n'), ?_, rfl⟩⟩
  · exact Nat.succ_le_succ hstart.length_le
  · simp only [commentExtent, List.drop_succ_cons, List.drop_zero, List.take_succ_cons]
    rw [← List.prefix_iff_eq_take.mp hstart]

/-- Every token fits into its text. -/
theorem extent_fits {pos : Position} {c : Char} {rest : List Char} {e : Extent}
    (h : extent pos c rest = .ok e) : e.Fits c rest := by
  unfold extent at h
  split at h
  · next hc =>
    obtain ⟨rfl, hr⟩ := hc
    cases h
    exact commentExtent_fits hr
  · split at h
    · split at h
      · next text size ht =>
        cases h
        exact ⟨Text.Quoted.close?_le ht, nofun⟩
      · cases h
    · split at h
      · next hc =>
        dsimp only at h
        split at h
        · cases h
          exact ⟨(plain_numberSize hc rest).1, nofun⟩
        · cases h
      · split at h
        · cases h
          refine ⟨(List.takeWhile_prefix _).length_le, fun hk => ?_⟩
          exact absurd hk (wordKind_ne_comment _)
        · split at h
          · next hs =>
            cases h
            exact symbolExtent?_fits hs
          · cases h

/-- A character that begins no token, or a string that is not closed: nothing else is a fault. -/
theorem extent_fault {pos : Position} {c : Char} {rest : List Char} {fault : ScanError}
    (h : extent pos c rest = .error fault) :
    fault = .unterminatedString pos ∨ fault = .unexpectedCharacter c pos := by
  unfold extent at h
  split at h
  · cases h
  · split at h
    · split at h
      · cases h
      · cases h
        exact .inl rfl
    · split at h
      · next hc =>
        dsimp only at h
        split at h
        · cases h
        · next hn =>
          -- the digits taken always read as a number
          have hsome := (plain_numberSize hc rest).2.ofText?
          rw [hn] at hsome
          cases hsome
      · split at h
        · cases h
        · split at h
          · cases h
          · cases h
            exact .inr rfl

/-! ## Texts -/

theorem scanFrom_fault {pos : Position} {cs : List Char} {tokens : List Token} {fault : ScanError}
    (h : scanFrom pos cs = (tokens, some fault)) :
    ∃ p, fault = .unterminatedString p ∨ ∃ c, fault = .unexpectedCharacter c p := by
  fun_induction scanFrom pos cs generalizing tokens with
  | case1 pos cs start => cases h
  | case2 pos cs start c rest hcut stop =>
    rename_i hstop
    cases h
    rcases extent_fault hstop with hf | hf
    · exact ⟨start, .inl hf⟩
    · exact ⟨start, .inr ⟨c, hf⟩⟩
  | case3 pos cs start c rest hcut e he lexeme others found hrest =>
    rename_i ih
    cases h
    exact ih hrest

/-- No text is refused for one of its numbers. -/
theorem scan?_fault {text : String} {fault : ScanError} (h : scan? text = .error fault) :
    ∃ p, fault = .unterminatedString p ∨ ∃ c, fault = .unexpectedCharacter c p := by
  unfold scan? at h
  split at h
  · cases h
  · next hs =>
    cases h
    exact scanFrom_fault hs

end Token

end TableQuery
