import Mathlib
import TableQuery.Proofs.Text.Matching
import TableQuery.Text.Lowercase
import TableQuery.Value.Operation

/-! # Patterns that ignore case

Value and pattern are lower-cased each as a whole. What stands for itself in the pattern becomes
what it becomes in the value, with two exceptions: the dotted capital I becomes two characters, one
too many for a `_`; and a capital sigma takes its form from its neighbours, which a wildcard hides
in the pattern but not in the value. A pattern that settles the form of its sigmas and leaves no
dotted I to a `_` still describes the value in lower case. -/

namespace TableQuery

namespace Text

/-! ## One character of a text -/

/-- What becomes of a character between these others, those before it given last one first. -/
def lowerAt (before : List Char) (c : Char) (rest : List Char) : List Char :=
  if c = 'Σ' then [if endsWord before rest then 'ς' else 'σ'] else lowerChar c

theorem lowerAfter_cons (before : List Char) (c : Char) (rest : List Char) :
    lowerAfter before (c :: rest) = lowerAt before c rest ++ lowerAfter (c :: before) rest := rfl

/-- A run in front of a text becomes a run in front of the lower-cased text. -/
theorem lowerAfter_append (before run rest : List Char) :
    ∃ front, lowerAfter before (run ++ rest) =
      front ++ lowerAfter (run.reverse ++ before) rest := by
  induction run generalizing before with
  | nil => exact ⟨[], rfl⟩
  | cons c run ih =>
    obtain ⟨front, hfront⟩ := ih (c :: before)
    refine ⟨lowerAt before c (run ++ rest) ++ front, ?_⟩
    rw [List.cons_append, lowerAfter_cons, hfront, List.append_assoc, List.reverse_cons,
      List.append_assoc, List.singleton_append]

/-- One character becomes one character, unless it is the dotted capital I. -/
theorem lowerAt_singleton {c : Char} (hc : c ≠ '\u0130') (before rest : List Char) :
    ∃ d, lowerAt before c rest = [d] := by
  unfold lowerAt
  split
  · exact ⟨_, rfl⟩
  · unfold lowerChar
    rw [if_neg hc]
    split
    · exact ⟨_, rfl⟩
    · split
      · exact ⟨_, rfl⟩
      · exact ⟨_, rfl⟩

namespace Wildcard

/-! ## Neighbours in value and pattern -/

/-- The first character that is not case-ignorable is a wildcard. -/
def meetsWildcard (pattern : List Char) : Bool :=
  (pattern.dropWhile (inRanges caseIgnorableRanges)).head?.any fun c => c == '%' || c == '_'

theorem meetsWildcard_percent (pattern : List Char) : meetsWildcard ('%' :: pattern) = true := by
  rw [meetsWildcard, List.dropWhile_cons_of_neg (by decide +kernel)]
  rfl

theorem meetsWildcard_underscore (pattern : List Char) : meetsWildcard ('_' :: pattern) = true := by
  rw [meetsWildcard, List.dropWhile_cons_of_neg (by decide +kernel)]
  rfl

theorem wildcard_not_cased {c : Char} (hc : c = '%' ∨ c = '_') :
    inRanges casedRanges c = false := by
  rcases hc with rfl | rfl
  · decide +kernel
  · decide +kernel

/-- Wildcards are not cased. -/
theorem meetsWildcard_of_meetsCased {pattern : List Char} (h : meetsCased pattern = true) :
    meetsWildcard pattern = false := by
  unfold meetsCased at h
  unfold meetsWildcard
  cases hrest : pattern.dropWhile (inRanges caseIgnorableRanges) with
  | nil => rfl
  | cons c rest =>
    rw [hrest] at h
    refine Bool.eq_false_iff.mpr fun hwild => ?_
    have hc : c = '%' ∨ c = '_' := by
      simpa only [List.head?_cons, Option.any_some, Bool.or_eq_true, beq_iff_eq] using hwild
    exact Bool.false_ne_true ((wildcard_not_cased hc).symm.trans h)

/-- Up to the first wildcard, a pattern shows the letters of the value. -/
theorem Matches.meetsCased_eq {value pattern : List Char} (h : Matches value pattern)
    (hw : meetsWildcard pattern = false) : meetsCased value = meetsCased pattern := by
  induction h with
  | done => rfl
  | @one _ pattern => exact absurd hw (by simp [meetsWildcard_underscore])
  | @same value pattern c _ _ _ ih =>
    unfold meetsWildcard at hw ih
    unfold meetsCased at ih ⊢
    cases hc : inRanges caseIgnorableRanges c with
    | true =>
      rw [List.dropWhile_cons_of_pos hc] at hw ⊢
      rw [List.dropWhile_cons_of_pos hc]
      exact ih hw
    | false => simp [List.dropWhile_cons_of_neg, hc]
  | @skip _ pattern => exact absurd hw (by simp [meetsWildcard_percent])
  | @take _ pattern => exact absurd hw (by simp [meetsWildcard_percent])

/-- What surrounds a sigma in a pattern tells whether it ends a word, whatever the wildcards stand
for: a letter follows, no letter comes before, or no wildcard is met on either side. -/
def settlesSigma (before after : List Char) : Bool :=
  meetsCased after || !meetsWildcard before && (!meetsCased before || !meetsWildcard after)

/-- The form of each sigma is settled in a pattern whose preceding characters, last one first, are
`before`. -/
def sigmasSettled (before : List Char) : List Char → Bool
  | [] => true
  | c :: rest => (c != 'Σ' || settlesSigma before rest) && sigmasSettled (c :: before) rest

theorem sigmasSettled_cons {before rest : List Char} {c : Char} :
    sigmasSettled before (c :: rest) = true ↔
      (c = 'Σ' → settlesSigma before rest = true) ∧ sigmasSettled (c :: before) rest = true := by
  rw [sigmasSettled, Bool.and_eq_true, Bool.or_eq_true, bne_iff_ne, ← imp_iff_not_or]

variable {before after patternBefore patternAfter : List Char}

theorem endsWord_eq (hb : Matches before patternBefore) (ha : Matches after patternAfter)
    (hs : settlesSigma patternBefore patternAfter = true) :
    endsWord before after = endsWord patternBefore patternAfter := by
  simp only [settlesSigma, Bool.or_eq_true, Bool.and_eq_true, Bool.not_eq_true'] at hs
  unfold endsWord
  rcases hs with hcased | ⟨hwild, huncased | hwild'⟩
  · rw [ha.meetsCased_eq (meetsWildcard_of_meetsCased hcased), hcased, Bool.not_true,
      Bool.and_false, Bool.and_false]
  · rw [hb.meetsCased_eq hwild, huncased, Bool.false_and, Bool.false_and]
  · rw [hb.meetsCased_eq hwild, ha.meetsCased_eq hwild']

/-- A character that stands for itself becomes the same in value and pattern. -/
theorem lowerAt_eq {c : Char} (hb : Matches before patternBefore) (ha : Matches after patternAfter)
    (hs : c = 'Σ' → settlesSigma patternBefore patternAfter = true) :
    lowerAt before c after = lowerAt patternBefore c patternAfter := by
  unfold lowerAt
  split
  · next hsigma => rw [endsWord_eq hb ha (hs hsigma)]
  · rfl

/-! ## Lower-cased patterns -/

/-- The same characters may stand in front of value and pattern, be they wildcards or not. -/
theorem Matches.append_left {value pattern : List Char} (h : Matches value pattern) :
    ∀ front : List Char, Matches (front ++ value) (front ++ pattern)
  | [] => h
  | c :: front => by
    have ih := h.append_left front
    by_cases hpercent : c = '%'
    · subst hpercent
      exact ih.run ['%']
    · by_cases hunderscore : c = '_'
      · subst hunderscore
        exact .one '_' ih
      · exact .same c hpercent hunderscore ih

/-- A pattern that describes a value describes it in lower case. The induction is on the runs of
the value; what has been read of the pattern describes what has been read of the value, from right
to left. -/
theorem matches_lowerAfter {pattern : List Char} {runs : List (List Char)}
    (hall : List.Forall₂ StandsFor pattern runs) (hb : Matches before patternBefore)
    (hdotted : '_' ∈ pattern → '\u0130' ∉ runs.flatten)
    (hsigma : sigmasSettled patternBefore pattern = true) :
    Matches (lowerAfter before runs.flatten) (lowerAfter patternBefore pattern) := by
  induction hall generalizing before patternBefore with
  | nil => exact .done
  | @cons p run pattern runs hp hall ih =>
    obtain ⟨hsettled, hsigma⟩ := sigmasSettled_cons.mp hsigma
    rw [List.flatten_cons] at hdotted ⊢
    have hrest : '_' ∈ pattern → '\u0130' ∉ runs.flatten := fun hu hd =>
      hdotted (List.mem_cons_of_mem p hu) (List.mem_append_right run hd)
    unfold StandsFor at hp
    split at hp
    · next hpercent =>
      subst hpercent
      obtain ⟨front, hfront⟩ := lowerAfter_append before run runs.flatten
      rw [hfront]
      exact (ih (hb.run run.reverse) hrest hsigma).run front
    · next hpercent =>
      split at hp
      · next hunderscore =>
        subst hunderscore
        obtain ⟨c, rfl⟩ := List.length_eq_one_iff.mp hp
        rw [List.singleton_append] at hdotted ⊢
        obtain ⟨d, hd⟩ := lowerAt_singleton (c := c)
          (fun hc => hdotted List.mem_cons_self (List.mem_cons.mpr (.inl hc.symm)))
          before runs.flatten
        rw [lowerAfter_cons, hd]
        exact .one d (ih (.one c hb) hrest hsigma)
      · next hunderscore =>
        subst hp
        rw [List.singleton_append, lowerAfter_cons, lowerAfter_cons,
          lowerAt_eq hb (matches_of_fallsInto ⟨runs, rfl, hall⟩) hsettled]
        exact (ih (.same p hpercent hunderscore hb) hrest hsigma).append_left _

end Wildcard

end Text

namespace Value

open Text Text.Wildcard

theorem like_eq_true {ignoreCase : Bool} {s p : String} :
    like ignoreCase (text s) (text p) = .ok (boolean true) ↔
      Matches (if ignoreCase then lowercase s else s).toList
        (if ignoreCase then lowercase p else p).toList := by
  rw [← describes_iff_matches, like]
  simp

/-- A pattern that describes a text describes it without regard to case as well, provided that it
leaves no dotted capital I to a `_` and settles the form of each of its sigmas. -/
theorem like_ignoring_case {s p : String} (h : like false (text s) (text p) = .ok (boolean true))
    (hdotted : '_' ∈ p.toList → '\u0130' ∉ s.toList)
    (hsigma : sigmasSettled [] p.toList = true) :
    like true (text s) (text p) = .ok (boolean true) := by
  obtain ⟨runs, hruns, hall⟩ := (like_eq_true.mp h).fallsInto
  rw [if_neg Bool.false_ne_true] at hruns hall
  rw [like_eq_true, if_pos rfl, if_pos rfl, lowercase, lowercase, String.toList_ofList,
    String.toList_ofList, ← hruns]
  exact matches_lowerAfter hall .done (hruns ▸ hdotted) hsigma

theorem sigma_before_blank_ignoring_case :
    like false (text "ΟΔΟΣ 12 ΑΘΗΝΑ") (text "%ΟΣ _2%") = .ok (boolean true) ∧
      like true (text "ΟΔΟΣ 12 ΑΘΗΝΑ") (text "%ΟΣ _2%") = .ok (boolean true) := by
  have h : like false (text "ΟΔΟΣ 12 ΑΘΗΝΑ") (text "%ΟΣ _2%") = .ok (boolean true) := by cbv
  exact ⟨h, like_ignoring_case h (fun _ => by simp) (by decide +kernel)⟩

/-- A `_` does not cover the two characters of a dotted I, and the sigma in front of a `%` does not
become what the one in front of a letter becomes. -/
theorem like_lost_ignoring_case :
    (like false (text "\u0130") (text "_") = .ok (boolean true) ∧
        like true (text "\u0130") (text "_") = .ok (boolean false)) ∧
      like false (text "aΣb") (text "aΣ%") = .ok (boolean true) ∧
        like true (text "aΣb") (text "aΣ%") = .ok (boolean false) := by
  have hdotted : lowercase "\u0130" = "i\u0307" := by decide +kernel
  have hinside : lowercase "aΣb" = "aσb" := by decide +kernel
  have hlast : lowercase "aΣ%" = "aς%" := by decide +kernel
  have hunderscore : lowercase "_" = "_" := by decide +kernel
  refine ⟨⟨by cbv, ?_⟩, by cbv, ?_⟩
  · simp only [like, if_true, hdotted, hunderscore]
    cbv
  · simp only [like, if_true, hinside, hlast]
    cbv

end Value

end TableQuery
