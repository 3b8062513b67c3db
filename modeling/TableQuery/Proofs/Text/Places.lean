import TableQuery.Proofs.Text.Matching

/-! # The search by places

The same search as one that counts: how far it has come in value and pattern, and where it has met
the last `%`. It looks at a character only after it has asked whether there is one, but where it ends
it cuts off the pattern at its place. No turn takes it behind the end of either text, so that the cut
always succeeds. -/

namespace TableQuery.Text.Wildcard

/-! ## The search, turn by turn -/

section

variable {mark : Option Mark} {c : Char} {rest pattern : List Char}

theorem search_follows (hf : follows c pattern = true) :
    search mark (c :: rest) pattern = search mark rest pattern.tail := by
  rw [search, if_pos hf]

theorem search_percent (hf : ¬follows c pattern = true) (hp : pattern.head? = some '%') :
    search mark (c :: rest) pattern =
      search (some ⟨pattern.tail, c :: rest⟩) (c :: rest) pattern.tail := by
  conv_lhs => rw [search, if_neg hf, if_pos hp]

theorem search_later {later : Mark} (hf : ¬follows c pattern = true)
    (hp : ¬pattern.head? = some '%') (hl : mark.bind Mark.later? = some later) :
    search mark (c :: rest) pattern = search (some later) later.value later.pattern := by
  conv_lhs => rw [search, if_neg hf, if_neg hp]
  split
  · next found =>
    cases hl.symm.trans found
    rfl
  · next found => cases hl.symm.trans found

theorem search_stuck (hf : ¬follows c pattern = true) (hp : ¬pattern.head? = some '%')
    (hl : mark.bind Mark.later? = none) : search mark (c :: rest) pattern = false := by
  rw [search, if_neg hf, if_neg hp]
  split
  · next found => cases hl.symm.trans found
  · rfl

end

/-! ## Places -/

/-- Where a search stands in value and pattern. The mark is the place of the last `%`, and the place
in the value up to which that one stands for the characters. -/
structure Places where
  value : Nat
  pattern : Nat
  mark : Option (Nat × Nat)

namespace Places

def start : Places := ⟨0, 0, none⟩

/-- One turn of the search, if it does not end here. -/
def next? (value pattern : List Char) (places : Places) : Option Places :=
  match value[places.value]? with
  | none => none
  | some c =>
    let ahead := pattern.drop places.pattern
    if follows c ahead then some ⟨places.value + 1, places.pattern + 1, places.mark⟩
    else if ahead.head? = some '%' then
      some ⟨places.value, places.pattern + 1, some (places.pattern, places.value)⟩
    else places.mark.map fun mark => ⟨mark.2 + 1, mark.1 + 1, some (mark.1, mark.2 + 1)⟩

/-- The answer of a search that ends here. -/
def answer (value pattern : List Char) (places : Places) : Bool :=
  decide (value.length ≤ places.value) && (pattern.drop places.pattern).all (· == '%')

/-- What a search comes to, turn after turn. -/
inductive Reached (value pattern : List Char) : Places → Prop where
  | start : Reached value pattern start
  | turn {places later : Places} (h : Reached value pattern places)
    (hn : places.next? value pattern = some later) : Reached value pattern later

/-- No place is behind the end of its text, and a mark is on a `%` that has been met. -/
structure InRange (value pattern : List Char) (places : Places) : Prop where
  inValue : places.value ≤ value.length
  inPattern : places.pattern ≤ pattern.length
  mark : ∀ percent upTo, places.mark = some (percent, upTo) →
    percent < pattern.length ∧ upTo ≤ places.value

/-! ## The search without counting -/

/-- The mark with what is left of both texts. -/
def toMark (value pattern : List Char) (places : Places) : Option Mark :=
  places.mark.map fun mark => ⟨pattern.drop (mark.1 + 1), value.drop mark.2⟩

/-- What the search finds from these places on. -/
def finds (value pattern : List Char) (places : Places) : Bool :=
  search (places.toMark value pattern) (value.drop places.value) (pattern.drop places.pattern)

variable {value pattern : List Char} {places later : Places}

theorem drop_of_getElem? {cs : List Char} {n : Nat} {c : Char} (h : cs[n]? = some c) :
    n < cs.length ∧ cs.drop n = c :: cs.drop (n + 1) := by
  obtain ⟨hn, rfl⟩ := List.getElem?_eq_some_iff.mp h
  exact ⟨hn, List.drop_eq_getElem_cons hn⟩

theorem lt_length_of_drop {cs rest : List Char} {n : Nat} {c : Char} (h : cs.drop n = c :: rest) :
    n < cs.length := by
  have hl := congrArg List.length h
  rw [List.length_drop, List.length_cons] at hl
  omega

/-- What a turn does with the character of the value that it looks at. -/
theorem next?_cases (h : places.next? value pattern = some later) :
    ∃ c, value[places.value]? = some c ∧
      (follows c (pattern.drop places.pattern) = true ∧
          later = ⟨places.value + 1, places.pattern + 1, places.mark⟩ ∨
        ¬follows c (pattern.drop places.pattern) = true ∧
          ((pattern.drop places.pattern).head? = some '%' ∧
              later = ⟨places.value, places.pattern + 1, some (places.pattern, places.value)⟩ ∨
            ¬(pattern.drop places.pattern).head? = some '%' ∧
              ∃ percent upTo, places.mark = some (percent, upTo) ∧
                later = ⟨upTo + 1, percent + 1, some (percent, upTo + 1)⟩)) := by
  unfold next? at h
  split at h
  · cases h
  · next c hc =>
    refine ⟨c, hc, ?_⟩
    dsimp only at h
    split at h
    · next hf =>
      cases h
      exact .inl ⟨hf, rfl⟩
    · next hf =>
      refine .inr ⟨hf, ?_⟩
      split at h
      · next hp =>
        cases h
        exact .inl ⟨hp, rfl⟩
      · next hp =>
        obtain ⟨mark, hm, rfl⟩ := Option.map_eq_some_iff.mp h
        exact .inr ⟨hp, mark.1, mark.2, hm, rfl⟩

/-- A turn stays within both texts. -/
theorem InRange.turn (h : places.InRange value pattern)
    (hn : places.next? value pattern = some later) : later.InRange value pattern := by
  obtain ⟨c, hc, ⟨hf, rfl⟩ | ⟨-, ⟨hp, rfl⟩ | ⟨-, percent, upTo, hm, rfl⟩⟩⟩ := next?_cases hn
  · obtain ⟨p, others, hp, -, -⟩ := follows_eq_true.mp hf
    refine ⟨(drop_of_getElem? hc).1, lt_length_of_drop hp, fun percent upTo hm => ?_⟩
    exact ⟨(h.mark percent upTo hm).1, Nat.le_succ_of_le (h.mark percent upTo hm).2⟩
  · obtain ⟨others, hp⟩ := List.head?_eq_some_iff.mp hp
    refine ⟨h.inValue, lt_length_of_drop hp, fun percent upTo hm => ?_⟩
    cases hm
    exact ⟨lt_length_of_drop hp, Nat.le_refl _⟩
  · obtain ⟨hpercent, hupTo⟩ := h.mark percent upTo hm
    have hlt := Nat.lt_of_le_of_lt hupTo (drop_of_getElem? hc).1
    refine ⟨hlt, hpercent, fun percent upTo hm => ?_⟩
    cases hm
    exact ⟨hpercent, Nat.le_refl _⟩

/-- A turn leaves to be found what was to be found before it. -/
theorem InRange.finds_turn (h : places.InRange value pattern)
    (hn : places.next? value pattern = some later) :
    later.finds value pattern = places.finds value pattern := by
  obtain ⟨c, hc, hcases⟩ := next?_cases hn
  obtain ⟨hlt, hvalue⟩ := drop_of_getElem? hc
  rw [finds, finds, hvalue]
  obtain ⟨hf, rfl⟩ | ⟨hf, ⟨hp, rfl⟩ | ⟨hp, percent, upTo, hm, rfl⟩⟩ := hcases
  · rw [search_follows hf, List.tail_drop]
    rfl
  · rw [search_percent hf hp, List.tail_drop, toMark, Option.map_some, hvalue]
  · have hup := Nat.lt_of_le_of_lt (h.mark percent upTo hm).2 hlt
    have hlater : (places.toMark value pattern).bind Mark.later? =
        some ⟨pattern.drop (percent + 1), value.drop (upTo + 1)⟩ := by
      rw [toMark, hm, Option.map_some, List.drop_eq_getElem_cons hup]
      rfl
    rw [search_later hf hp hlater]
    rfl

/-- Where there is no next turn, the search has its answer. -/
theorem finds_of_end (hn : places.next? value pattern = none) :
    places.finds value pattern = places.answer value pattern := by
  unfold next? at hn
  cases hc : value[places.value]? with
  | none =>
    have hle := List.getElem?_eq_none_iff.mp hc
    rw [finds, answer, List.drop_eq_nil_of_le hle, search, decide_eq_true hle, Bool.true_and]
  | some c =>
    rw [hc] at hn
    dsimp only at hn
    obtain ⟨hlt, hvalue⟩ := drop_of_getElem? hc
    split at hn
    · cases hn
    · next hf =>
      split at hn
      · cases hn
      · next hp =>
        have hmark : (places.toMark value pattern).bind Mark.later? = none := by
          rw [toMark, Option.map_eq_none_iff.mp hn]
          rfl
        rw [finds, answer, hvalue, search_stuck hf hp hmark,
          decide_eq_false (Nat.not_le.mpr hlt), Bool.false_and]

/-- Wherever it has come to, a search is within both texts, and it still finds what it was to find
from the start. -/
theorem Reached.inRange (h : Reached value pattern places) :
    places.InRange value pattern ∧ places.finds value pattern = search none value pattern := by
  induction h with
  | start => exact ⟨⟨Nat.zero_le _, Nat.zero_le _, nofun⟩, rfl⟩
  | turn _ hn ih => exact ⟨ih.1.turn hn, (ih.1.finds_turn hn).trans ih.2⟩

/-- So it has the right answer where it ends. -/
theorem Reached.answer_eq (h : Reached value pattern places)
    (hn : places.next? value pattern = none) :
    places.answer value pattern = search none value pattern :=
  (finds_of_end hn).symm.trans h.inRange.2

end Places

end TableQuery.Text.Wildcard
