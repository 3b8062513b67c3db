import Mathlib
import TableQuery.Text.Lowercase

/-! # Lower case, character by character

A character is lower-cased by itself, but for a capital sigma, which has two forms. Line ends,
quotes, digits and most other signs stay what they are, and nothing else becomes one of them. -/

namespace TableQuery.Text

/-! ## Single characters -/

/-- What may become of a character. -/
def lowerForms (c : Char) : List (List Char) := if c = 'Σ' then [['σ'], ['ς']] else [lowerChar c]

/-- Line ends, quotes, digits and other signs in front of the letters. -/
def IsSign (c : Char) : Prop := 0 < c.toNat ∧ c.toNat ≤ 0x40

instance (c : Char) : Decidable (IsSign c) := inferInstanceAs (Decidable (_ ∧ _))

/-- What holds of all characters below a bound can be checked one by one. -/
theorem of_toNat_lt {P : Char → Prop} {n : Nat} (h : ∀ m < n, P (Char.ofNat m)) {c : Char}
    (hc : c.toNat < n) : P c := by
  rw [← Char.ofNat_toNat c]
  exact h _ hc

theorem lowerForms_ascii {c : Char} (hc : c.toNat < 0x80) : lowerForms c = [[c.toLower]] := by
  have hsigma : c ≠ 'Σ' := by
    rintro rfl
    exact absurd hc (by decide)
  rw [lowerForms, if_neg hsigma, lowerChar, if_pos hc]

theorem lowerForms_sign {c : Char} (hc : IsSign c) : lowerForms c = [[c]] := by
  have hlower : c.toLower = c :=
    of_toNat_lt (P := fun c => IsSign c → c.toLower = c) (n := 0x41) (by decide)
      (Nat.lt_succ_of_le hc.2) hc
  rw [lowerForms_ascii (Nat.lt_of_le_of_lt hc.2 (by decide)), hlower]

/-- No run of letters is lower-cased to signs. -/
theorem sign_lt_image : ∀ run ∈ lowercaseRuns, 0x40 < run.first + run.shift := by
  have hall : lowercaseRuns.all (fun run => decide (0x40 < run.first + run.shift)) = true := by
    decide +kernel
  intro run hr
  exact of_decide_eq_true (List.all_eq_true.mp hall run hr)

/-- Nothing but a sign itself becomes a sign. -/
theorem eq_of_sign {c d : Char} {form : List Char} (hf : form ∈ lowerForms c) (hd : d ∈ form)
    (hs : IsSign d) : d = c := by
  unfold lowerForms at hf
  split at hf
  · rcases List.mem_pair.mp hf with rfl | rfl <;> cases List.mem_singleton.mp hd <;>
      exact absurd hs (by decide)
  · cases List.mem_singleton.mp hf
    unfold lowerChar at hd
    split at hd
    · next hc =>
      cases List.mem_singleton.mp hd
      exact of_toNat_lt (P := fun c => IsSign c.toLower → c.toLower = c) (by decide) hc hs
    · split at hd
      · rcases List.mem_pair.mp hd with rfl | rfl <;> exact absurd hs (by decide)
      · split at hd
        · next run hrun =>
          cases List.mem_singleton.mp hd
          have himage := sign_lt_image run (List.mem_of_find?_eq_some hrun)
          have hfirst := List.find?_some hrun
          simp only [CaseRun.contains, Bool.and_eq_true, decide_eq_true_eq] at hfirst
          rw [IsSign, Char.toNat_ofNat] at hs
          split at hs <;> omega
        · cases List.mem_singleton.mp hd
          rfl

/-- A class that only signs are in, or that only signs are not in, is kept. -/
theorem eq_of_class {p : Char → Bool} {b : Bool} (hp : ∀ c, ¬IsSign c → p c = b) {c d : Char}
    {form : List Char} (hf : form ∈ lowerForms c) (hd : d ∈ form) : p d = p c := by
  by_cases hsign : IsSign d
  · rw [eq_of_sign hf hd hsign]
  · by_cases hsign' : IsSign c
    · rw [lowerForms_sign hsign'] at hf
      cases List.mem_singleton.mp hf
      rw [List.mem_singleton.mp hd]
    · rw [hp d hsign, hp c hsign']

theorem lowerForms_ne_nil {c : Char} {form : List Char} (hf : form ∈ lowerForms c) : form ≠ [] := by
  unfold lowerForms at hf
  split at hf
  · rcases List.mem_pair.mp hf with rfl | rfl <;> simp
  · cases List.mem_singleton.mp hf
    unfold lowerChar
    split
    · simp
    · split
      · simp
      · split <;> simp

/-- No run of letters has a blank in it. -/
theorem blank_not_in_run : ∀ range ∈ blankRanges, ∀ run ∈ lowercaseRuns,
    run.last < range.1 ∨ range.2 < run.first := by
  decide +kernel

theorem lowerForms_blank {c : Char} (hc : isBlank c = true) : lowerForms c = [[c]] := by
  by_cases hascii : c.toNat < 0x80
  · have hlower : c.toLower = c :=
      of_toNat_lt (P := fun c => isBlank c = true → c.toLower = c) (by decide) hascii hc
    rw [lowerForms_ascii hascii, hlower]
  · obtain ⟨range, hrange, hin⟩ := List.any_eq_true.mp hc
    simp only [Bool.and_eq_true, decide_eq_true_eq] at hin
    have hnone : lowercaseRuns.find? (·.contains c.toNat) = none := by
      refine List.find?_eq_none.mpr fun run hr => ?_
      have hapart := blank_not_in_run range hrange run hr
      simp only [CaseRun.contains, Bool.and_eq_true, decide_eq_true_eq]
      omega
    have hsigma : c ≠ 'Σ' := by
      rintro rfl
      exact absurd hc (by decide)
    have hdotted : c ≠ '\u0130' := by
      rintro rfl
      exact absurd hc (by decide)
    simp only [lowerForms, lowerChar, if_neg hsigma, if_neg hascii, if_neg hdotted, hnone]

/-! ## Texts -/

/-- The second text is made of forms of the characters of the first one. -/
inductive Lowered : List Char → List Char → Prop
  | nil : Lowered [] []
  | cons {c : Char} {form cs ls : List Char} (hf : form ∈ lowerForms c) (h : Lowered cs ls) :
    Lowered (c :: cs) (form ++ ls)

theorem lowered_lowerAfter (before cs : List Char) : Lowered cs (lowerAfter before cs) := by
  induction cs generalizing before with
  | nil => exact .nil
  | cons c rest ih =>
    refine .cons ?_ (ih _)
    unfold lowerForms
    split
    · split <;> simp
    · exact List.mem_singleton.mpr rfl

namespace Lowered

variable {cs ds ls : List Char} {c : Char}

theorem cons_inv (h : Lowered (c :: cs) ls) :
    ∃ form rest, form ∈ lowerForms c ∧ Lowered cs rest ∧ ls = form ++ rest := by
  cases h with
  | cons hf h => exact ⟨_, _, hf, h, rfl⟩

/-- A character with one form stays in front. -/
theorem cons_fixed {d : Char} (hc : lowerForms c = [[d]]) (h : Lowered (c :: cs) ls) :
    ∃ rest, Lowered cs rest ∧ ls = d :: rest := by
  obtain ⟨form, rest, hf, hr, rfl⟩ := h.cons_inv
  rw [hc] at hf
  cases List.mem_singleton.mp hf
  exact ⟨rest, hr, rfl⟩

/-- Signs stand in front of a text if and only if they stand in front of the lower-cased one. -/
theorem head?_sign (h : Lowered cs ls) {d : Char} (hd : IsSign d) :
    ls.head? = some d ↔ cs.head? = some d := by
  cases h with
  | nil => rfl
  | @cons c form cs ls hf h =>
    obtain ⟨first, more, rfl⟩ := List.exists_cons_of_ne_nil (lowerForms_ne_nil hf)
    rw [List.cons_append, List.head?_cons, List.head?_cons, Option.some_inj, Option.some_inj]
    constructor
    · rintro rfl
      exact (eq_of_sign hf List.mem_cons_self hd).symm
    · rintro rfl
      rw [lowerForms_sign hd] at hf
      exact (List.cons.inj (List.mem_singleton.mp hf)).1

theorem eq_flatMap (h : Lowered cs ls) (hs : 'Σ' ∉ cs) : ls = cs.flatMap lowerChar := by
  induction h with
  | nil => rfl
  | @cons c form cs ls hf h ih =>
    rw [List.mem_cons, not_or] at hs
    obtain ⟨hc, hcs⟩ := hs
    rw [lowerForms, if_neg (Ne.symm hc), List.mem_singleton] at hf
    rw [List.flatMap_cons, ← hf, ih hcs]

/-- The front of a text and the rest of it are lower-cased where they are. -/
theorem append_inv (h : Lowered (cs ++ ds) ls) :
    ∃ front rest, Lowered cs front ∧ Lowered ds rest ∧ ls = front ++ rest := by
  induction cs generalizing ls with
  | nil => exact ⟨[], ls, .nil, h, rfl⟩
  | cons c cs ih =>
    obtain ⟨form, others, hf, hothers, rfl⟩ := h.cons_inv
    obtain ⟨front, rest, hfront, hrest, rfl⟩ := ih hothers
    exact ⟨form ++ front, rest, .cons hf hfront, hrest, (List.append_assoc ..).symm⟩

/-- Where a class of characters is kept, the longest run of them in front is, too, provided that
what stands behind the run does not come into the class. -/
theorem takeWhile {p : Char → Bool} (h : Lowered cs ls)
    (hin : ∀ c, p c = true → ∀ form ∈ lowerForms c, ∀ d ∈ form, p d = true)
    (hout : ∀ c, p c = false → (cs.dropWhile p).head? = some c → ∀ form ∈ lowerForms c,
      ∀ d ∈ form.head?, p d = false) :
    Lowered (cs.takeWhile p) (ls.takeWhile p) ∧ Lowered (cs.dropWhile p) (ls.dropWhile p) := by
  induction h with
  | nil => exact ⟨.nil, .nil⟩
  | @cons c form cs ls hf h ih =>
    cases hc : p c with
    | true =>
      rw [List.takeWhile_cons_of_pos hc, List.dropWhile_cons_of_pos hc,
        List.takeWhile_append_of_pos (hin c hc form hf),
        List.dropWhile_append_of_pos (hin c hc form hf)]
      rw [List.dropWhile_cons_of_pos hc] at hout
      obtain ⟨hfront, hrest⟩ := ih hout
      exact ⟨.cons hf hfront, hrest⟩
    | false =>
      obtain ⟨d, more, rfl⟩ := List.exists_cons_of_ne_nil (lowerForms_ne_nil hf)
      have hd : p d = false := by
        refine hout c hc ?_ _ hf d rfl
        rw [List.dropWhile_cons_of_neg (by simp [hc]), List.head?_cons]
      rw [List.takeWhile_cons_of_neg (by simp [hc]), List.dropWhile_cons_of_neg (by simp [hc]),
        List.cons_append, List.takeWhile_cons_of_neg (by simp [hd]),
        List.dropWhile_cons_of_neg (by simp [hd])]
      exact ⟨.nil, .cons hf h⟩

/-- Signs are told apart from other characters as before. -/
theorem takeWhile_signs {p : Char → Bool} {b : Bool} (h : Lowered cs ls)
    (hp : ∀ c, ¬IsSign c → p c = b) :
    Lowered (cs.takeWhile p) (ls.takeWhile p) ∧ Lowered (cs.dropWhile p) (ls.dropWhile p) := by
  refine h.takeWhile (fun c hc form hf d hd => ?_) fun c hc _ form hf d hd => ?_
  · rw [eq_of_class hp hf hd, hc]
  · rw [eq_of_class hp hf (List.mem_of_mem_head? hd), hc]

/-- Where each character has itself for its only form, nothing changes. -/
theorem eq_of_fixed (h : Lowered cs ls) (hs : ∀ c ∈ cs, lowerForms c = [[c]]) : ls = cs := by
  induction cs generalizing ls with
  | nil =>
    cases h
    rfl
  | cons c cs ih =>
    obtain ⟨hc, hcs⟩ := List.forall_mem_cons.mp hs
    obtain ⟨rest, hrest, rfl⟩ := h.cons_fixed hc
    rw [ih hrest hcs]

theorem take_fixed {n : Nat} (h : Lowered cs ls) (hn : n ≤ cs.length)
    (hs : ∀ c ∈ cs.take n, lowerForms c = [[c]]) :
    ls.take n = cs.take n ∧ Lowered (cs.drop n) (ls.drop n) := by
  have hsplit : Lowered (cs.take n ++ cs.drop n) ls := by rwa [List.take_append_drop]
  obtain ⟨front, rest, hfront, hrest, rfl⟩ := hsplit.append_inv
  have hlength : (cs.take n).length = n := List.length_take_of_le hn
  rw [hfront.eq_of_fixed hs, List.take_left' hlength, List.drop_left' hlength]
  exact ⟨rfl, hrest⟩

end Lowered

end TableQuery.Text
