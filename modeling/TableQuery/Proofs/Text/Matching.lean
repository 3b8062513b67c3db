import Mathlib.Data.List.Forall2
import TableQuery.Proofs.Text.Wildcard

/-! # What a pattern describes

The value falls into runs of characters, one for each character of the pattern. The flags of
suffixes decide that, and so does a search that goes through the value from the left and remembers
no `%` but the last one it has met. -/

namespace TableQuery.Text.Wildcard

/-! ## Runs of characters -/

/-- The character of a pattern stands for the run of characters. -/
def StandsFor (p : Char) (run : List Char) : Prop :=
  if p = '%' then True else if p = '_' then run.length = 1 else run = [p]

/-- The value falls into runs that the characters of the pattern stand for, one after the other. -/
def FallsInto (value pattern : List Char) : Prop :=
  ∃ runs : List (List Char), runs.flatten = value ∧ List.Forall₂ StandsFor pattern runs

theorem standsFor_percent (run : List Char) : StandsFor '%' run := by simp [StandsFor]

theorem standsFor_underscore (c : Char) : StandsFor '_' [c] := by simp [StandsFor]

theorem standsFor_self {c : Char} (hp : c ≠ '%') (hu : c ≠ '_') : StandsFor c [c] := by
  simp [StandsFor, hp, hu]

/-- Any run may stand in front of what a pattern behind a `%` matches. -/
theorem Matches.run {value pattern : List Char} (h : Matches value pattern) :
    ∀ run : List Char, Matches (run ++ value) ('%' :: pattern)
  | [] => .skip h
  | c :: run => .take c (h.run run)

theorem Matches.fallsInto {value pattern : List Char} (h : Matches value pattern) :
    FallsInto value pattern := by
  induction h with
  | done => exact ⟨[], rfl, .nil⟩
  | one c _ ih =>
    obtain ⟨runs, rfl, hall⟩ := ih
    exact ⟨[c] :: runs, rfl, .cons (standsFor_underscore c) hall⟩
  | same c hp hu _ ih =>
    obtain ⟨runs, rfl, hall⟩ := ih
    exact ⟨[c] :: runs, rfl, .cons (standsFor_self hp hu) hall⟩
  | skip _ ih =>
    obtain ⟨runs, rfl, hall⟩ := ih
    exact ⟨[] :: runs, rfl, .cons (standsFor_percent []) hall⟩
  | take c _ ih =>
    obtain ⟨runs, rfl, hall⟩ := ih
    cases hall with
    | @cons _ run _ runs _ hrest =>
      exact ⟨(c :: run) :: runs, rfl, .cons (standsFor_percent (c :: run)) hrest⟩

theorem matches_of_fallsInto {value pattern : List Char} (h : FallsInto value pattern) :
    Matches value pattern := by
  obtain ⟨runs, rfl, hall⟩ := h
  induction hall with
  | nil => exact .done
  | @cons p run pattern runs hp _ ih =>
    unfold StandsFor at hp
    split at hp
    · next hpercent =>
      subst hpercent
      exact ih.run run
    · next hpercent =>
      split at hp
      · next hunderscore =>
        subst hunderscore
        obtain ⟨c, rfl⟩ := List.length_eq_one_iff.mp hp
        exact .one c ih
      · next hunderscore =>
        subst hp
        exact .same p hpercent hunderscore ih

theorem matches_iff_fallsInto {value pattern : List Char} :
    Matches value pattern ↔ FallsInto value pattern := ⟨Matches.fallsInto, matches_of_fallsInto⟩

/-! ## Flags -/

theorem suffixFlags_cons_describes (c : Char) (value pattern : List Char) :
    suffixFlags (c :: value) pattern =
      describes (c :: value) pattern :: suffixFlags value pattern := by
  obtain ⟨flag, hflag⟩ := suffixFlags_cons c value pattern
  rw [describes, hflag]
  rfl

theorem describes_cons_nil (c : Char) (value : List Char) : describes (c :: value) [] = false := by
  simp [describes, suffixFlags, List.replicate_succ]

theorem describes_nil_percent (pattern : List Char) :
    describes [] ('%' :: pattern) = describes [] pattern := by
  obtain ⟨flag, hflag⟩ := List.length_eq_one_iff.mp (length_suffixFlags [] pattern)
  simp [describes, suffixFlags, hflag, anyLater]

theorem describes_cons_percent (c : Char) (value pattern : List Char) :
    describes (c :: value) ('%' :: pattern) =
      (describes (c :: value) pattern || describes value ('%' :: pattern)) := by
  rw [describes, suffixFlags, if_pos rfl, suffixFlags_cons_describes, anyLater]
  simp [describes, suffixFlags]

theorem describes_nil_cons {p : Char} (hp : p ≠ '%') (pattern : List Char) :
    describes [] (p :: pattern) = false := by
  simp [describes, suffixFlags, hp]

theorem describes_cons_cons {p : Char} (hp : p ≠ '%') (c : Char) (value pattern : List Char) :
    describes (c :: value) (p :: pattern) = (accepts p c && describes value pattern) := by
  obtain ⟨flag, rest, hflags⟩ := List.exists_cons_of_ne_nil (suffixFlags_ne_nil value pattern)
  rw [describes, suffixFlags, if_neg hp, suffixFlags_cons_describes, List.tail_cons, describes,
    hflags]
  rfl

/-! ## Steps of a match -/

theorem accepts_eq_true {p c : Char} : accepts p c = true ↔ p = '_' ∨ p = c := by
  simp [accepts]

theorem matches_nil_percent {pattern : List Char} :
    Matches [] ('%' :: pattern) ↔ Matches [] pattern := by
  refine ⟨fun h => ?_, .skip⟩
  cases h with
  | skip h => exact h

theorem matches_cons_percent {c : Char} {value pattern : List Char} :
    Matches (c :: value) ('%' :: pattern) ↔
      Matches (c :: value) pattern ∨ Matches value ('%' :: pattern) := by
  constructor
  · intro h
    cases h with
    | same _ hp => exact absurd rfl hp
    | skip h => exact .inl h
    | take _ h => exact .inr h
  · rintro (h | h)
    · exact .skip h
    · exact .take c h

theorem matches_cons_cons {p c : Char} {value pattern : List Char} (hp : p ≠ '%') :
    Matches (c :: value) (p :: pattern) ↔ accepts p c = true ∧ Matches value pattern := by
  rw [accepts_eq_true]
  constructor
  · intro h
    cases h with
    | one _ h => exact ⟨.inl rfl, h⟩
    | same _ _ _ h => exact ⟨.inr rfl, h⟩
    | skip => exact absurd rfl hp
    | take => exact absurd rfl hp
  · rintro ⟨ha, h⟩
    by_cases hu : p = '_'
    · subst hu
      exact .one c h
    · obtain rfl := ha.resolve_left hu
      exact .same p hp hu h

/-- Only runs of `%` match where no value is left. -/
theorem matches_nil {pattern : List Char} :
    Matches [] pattern ↔ pattern.all (· == '%') = true := by
  induction pattern with
  | nil => exact ⟨fun _ => rfl, fun _ => .done⟩
  | cons p pattern ih =>
    rw [List.all_cons, Bool.and_eq_true, beq_iff_eq, ← ih]
    constructor
    · intro h
      cases h with
      | skip h => exact ⟨rfl, h⟩
    · rintro ⟨rfl, h⟩
      exact .skip h

theorem describes_iff_matches (value pattern : List Char) :
    describes value pattern = true ↔ Matches value pattern := by
  induction pattern generalizing value with
  | nil =>
    cases value with
    | nil => exact ⟨fun _ => .done, fun _ => rfl⟩
    | cons c value =>
      rw [describes_cons_nil]
      exact ⟨nofun, nofun⟩
  | cons p pattern ih =>
    by_cases hp : p = '%'
    · subst hp
      induction value with
      | nil => rw [describes_nil_percent, matches_nil_percent, ih]
      | cons c value ihv =>
        rw [describes_cons_percent, matches_cons_percent, Bool.or_eq_true, ih, ihv]
    · cases value with
      | nil =>
        rw [describes_nil_cons hp]
        refine ⟨nofun, fun h => ?_⟩
        cases h with
        | skip => exact absurd rfl hp
      | cons c value =>
        rw [describes_cons_cons hp, matches_cons_cons hp, Bool.and_eq_true, ih]

/-! ## Searching with one mark

The search takes characters of value and pattern side by side. At a `%` it sets its mark: the
pattern behind it and the value that is left. Where it cannot go on, it starts again from the mark
with one character less of that value; earlier marks are forgotten. -/

/-- The pattern behind the last `%` and the value to try next behind it. -/
structure Mark where
  pattern : List Char
  value : List Char

/-- The mark for a start one character later. -/
def Mark.later? : Mark → Option Mark
  | ⟨_, []⟩ => none
  | ⟨pattern, _ :: value⟩ => some ⟨pattern, value⟩

/-- The pattern begins with a character that stands for this one and no others. -/
def follows (c : Char) (pattern : List Char) : Bool :=
  pattern.head?.any fun p => p != '%' && accepts p c

theorem length_later {mark later : Mark} (h : mark.later? = some later) :
    later.pattern = mark.pattern ∧ mark.value.length = later.value.length + 1 := by
  unfold Mark.later? at h
  split at h <;> cases h
  exact ⟨rfl, rfl⟩

/-- Whether the rest of the pattern describes the rest of the value, or all of the pattern behind
the mark what is left of the value at a later start. -/
def search (mark : Option Mark) (value pattern : List Char) : Bool :=
  match value with
  | [] => pattern.all (· == '%')
  | c :: rest =>
    if follows c pattern then search mark rest pattern.tail
    else if pattern.head? = some '%' then
      search (some ⟨pattern.tail, c :: rest⟩) (c :: rest) pattern.tail
    else
      match _found : mark.bind Mark.later? with
      | some later => search (some later) later.value later.pattern
      | none => false
termination_by
  (max pattern.length (mark.elim 0 (·.pattern.length)), mark.elim 0 (·.value.length),
    value.length)
decreasing_by
  · refine Prod.Lex.right' _ ?_ (.right _ (Nat.lt_succ_self _))
    rw [List.length_tail]
    omega
  · next hpercent =>
    obtain ⟨others, rfl⟩ := List.head?_eq_some_iff.mp hpercent
    refine .left _ _ ?_
    simp only [Option.elim_some, List.tail_cons, List.length_cons]
    omega
  · obtain ⟨before, rfl, hlater⟩ := Option.bind_eq_some_iff.mp _found
    obtain ⟨hpattern, hvalue⟩ := length_later hlater
    refine Prod.Lex.right' _ ?_ (.left _ _ ?_)
    · simp only [Option.elim_some, hpattern]
      omega
    · simp only [Option.elim_some]
      omega

/-! ## Nothing is lost with the earlier marks -/

/-- The characters of the pattern, no `%` among them, take the characters of the value one by
one. -/
def Aligned (taken passed : List Char) : Prop :=
  List.Forall₂ (fun c p => p ≠ '%' ∧ accepts p c = true) taken passed

theorem Aligned.matches_iff {taken passed : List Char} (h : Aligned taken passed)
    (value pattern : List Char) :
    Matches (taken ++ value) (passed ++ pattern) ↔ Matches value pattern := by
  induction h with
  | nil => rfl
  | cons hp _ ih => rw [List.cons_append, List.cons_append, matches_cons_cons hp.1, ih,
      and_iff_right hp.2]

/-- Whatever matches a pattern that begins with such characters begins with as many of its own. -/
theorem matches_passed {taken passed : List Char} (h : Aligned taken passed)
    {value pattern : List Char} (hm : Matches value (passed ++ pattern)) :
    Matches (value.drop passed.length) pattern ∧ passed.length ≤ value.length := by
  induction h generalizing value with
  | nil => exact ⟨hm, Nat.zero_le _⟩
  | @cons _ p _ passed hp _ ih =>
    cases value with
    | nil =>
      cases hm with
      | skip => exact absurd rfl hp.1
    | cons c value =>
      have hrest := ih ((matches_cons_cons hp.1).mp hm).2
      exact ⟨hrest.1, Nat.succ_le_succ hrest.2⟩

/-- The search has gone from its mark to where it is without meeting a `%`. -/
def Mark.ReachesTo (mark : Mark) (value pattern : List Char) : Prop :=
  ∃ taken passed, mark.value = taken ++ value ∧ mark.pattern = passed ++ pattern ∧
    Aligned taken passed

/-- What is left to be found: a match of the rest or, once there is a mark, one from the mark on. -/
def Sought (mark : Option Mark) (value pattern : List Char) : Prop :=
  match mark with
  | none => Matches value pattern
  | some mark => ∃ start, start <:+ mark.value ∧ Matches start mark.pattern

/-- Behind a `%` any suffix may match. -/
theorem matches_percent_iff {value pattern : List Char} :
    Matches value ('%' :: pattern) ↔ ∃ start, start <:+ value ∧ Matches start pattern := by
  constructor
  · intro h
    induction value with
    | nil => exact ⟨[], List.suffix_rfl, matches_nil_percent.mp h⟩
    | cons c value ih =>
      rcases matches_cons_percent.mp h with h | h
      · exact ⟨c :: value, List.suffix_rfl, h⟩
      · obtain ⟨start, hs, hm⟩ := ih h
        exact ⟨start, hs.trans (List.suffix_cons c value), hm⟩
  · rintro ⟨start, ⟨run, rfl⟩, hm⟩
    exact hm.run run

/-- A later `%` may be marked in place of the last one: what it leaves of the value is the most that
any start behind the earlier mark could leave there. -/
theorem sought_percent {mark : Option Mark} {value pattern : List Char}
    (h : ∀ m, mark = some m → m.ReachesTo value ('%' :: pattern)) :
    Sought mark value ('%' :: pattern) ↔ Sought (some ⟨pattern, value⟩) value pattern := by
  cases mark with
  | none => exact matches_percent_iff
  | some mark =>
    obtain ⟨taken, passed, hvalue, hpattern, haligned⟩ := h mark rfl
    constructor
    · rintro ⟨start, hstart, hm⟩
      rw [hpattern] at hm
      obtain ⟨hrest, hlength⟩ := matches_passed haligned hm
      obtain ⟨late, hlate, hmatch⟩ := matches_percent_iff.mp hrest
      have htaken := haligned.length_eq
      rw [hvalue] at hstart
      have hleft : start.drop passed.length <:+ value := by
        refine List.suffix_of_suffix_length_le ((List.drop_suffix _ _).trans hstart)
          (List.suffix_append taken value) ?_
        have hle := hstart.length_le
        rw [List.length_append] at hle
        rw [List.length_drop]
        omega
      exact ⟨late, hlate.trans hleft, hmatch⟩
    · rintro ⟨start, hstart, hm⟩
      refine ⟨mark.value, List.suffix_rfl, ?_⟩
      rw [hvalue, hpattern, haligned.matches_iff]
      exact matches_percent_iff.mpr ⟨start, hstart, hm⟩

/-- Where the search cannot go on, there is no match from the mark itself. -/
theorem sought_later {mark : Option Mark} {c : Char} {rest pattern : List Char}
    (h : ∀ m, mark = some m → m.ReachesTo (c :: rest) pattern)
    (hstuck : ¬Matches (c :: rest) pattern) :
    Sought mark (c :: rest) pattern ↔
      ∃ later, mark.bind Mark.later? = some later ∧
        Sought (some later) later.value later.pattern := by
  cases mark with
  | none => simp [Sought, hstuck]
  | some mark =>
    obtain ⟨taken, passed, hvalue, hpattern, haligned⟩ := h mark rfl
    obtain ⟨first, others, hfirst⟩ : ∃ first others, mark.value = first :: others := by
      rw [hvalue]
      exact List.exists_cons_of_ne_nil (by simp)
    have hlater : mark.later? = some ⟨mark.pattern, others⟩ := by
      obtain ⟨p, v⟩ := mark
      cases hfirst
      rfl
    have hnot : ¬Matches (first :: others) mark.pattern := by
      rw [← hfirst, hvalue, hpattern, haligned.matches_iff]
      exact hstuck
    simp only [Option.bind_some, hlater, Option.some.injEq, exists_eq_left', Sought, hfirst,
      List.suffix_cons_iff]
    constructor
    · rintro ⟨start, rfl | hs, hm⟩
      · exact absurd hm hnot
      · exact ⟨start, hs, hm⟩
    · rintro ⟨start, hs, hm⟩
      exact ⟨start, .inr hs, hm⟩

theorem follows_eq_true {c : Char} {pattern : List Char} :
    follows c pattern = true ↔
      ∃ p others, pattern = p :: others ∧ p ≠ '%' ∧ accepts p c = true := by
  cases pattern <;> simp [follows]

theorem Mark.reachesTo_self (mark : Mark) : mark.ReachesTo mark.value mark.pattern :=
  ⟨[], [], rfl, rfl, .nil⟩

theorem Mark.ReachesTo.step {mark : Mark} {c p : Char} {value pattern : List Char}
    (h : mark.ReachesTo (c :: value) (p :: pattern)) (hp : p ≠ '%') (ha : accepts p c = true) :
    mark.ReachesTo value pattern := by
  obtain ⟨taken, passed, hvalue, hpattern, haligned⟩ := h
  refine ⟨taken ++ [c], passed ++ [p], by simp [hvalue], by simp [hpattern], ?_⟩
  exact List.rel_append haligned (.cons ⟨hp, ha⟩ .nil)

/-- A search that has come to the end of the value can only match from where it has started. -/
theorem sought_nil {mark : Option Mark} {pattern : List Char}
    (h : ∀ m, mark = some m → m.ReachesTo [] pattern) :
    Sought mark [] pattern ↔ Matches [] pattern := by
  cases mark with
  | none => rfl
  | some mark =>
    obtain ⟨taken, passed, hvalue, hpattern, haligned⟩ := h mark rfl
    constructor
    · rintro ⟨start, hstart, hm⟩
      rw [hpattern] at hm
      obtain ⟨hrest, hlength⟩ := matches_passed haligned hm
      have hle := hstart.length_le
      rw [hvalue, List.append_nil, haligned.length_eq] at hle
      rwa [List.drop_eq_nil_of_le hle] at hrest
    · intro hm
      refine ⟨mark.value, List.suffix_rfl, ?_⟩
      rw [hvalue, hpattern, haligned.matches_iff]
      exact hm

/-- Without a `%` at hand or a character that stands for the next one there is no match. -/
theorem not_matches_of_stuck {c : Char} {rest pattern : List Char}
    (hf : ¬follows c pattern = true) (hp : ¬pattern.head? = some '%') :
    ¬Matches (c :: rest) pattern := by
  intro hm
  cases pattern with
  | nil => cases hm
  | cons p others =>
    have hne : p ≠ '%' := fun he => hp (congrArg some he)
    exact hf (follows_eq_true.mpr ⟨p, others, rfl, hne, ((matches_cons_cons hne).mp hm).1⟩)

theorem search_iff_sought {mark : Option Mark} {value pattern : List Char}
    (h : ∀ m, mark = some m → m.ReachesTo value pattern) :
    search mark value pattern = true ↔ Sought mark value pattern := by
  fun_induction search mark value pattern with
  | case1 mark pattern => rw [sought_nil h, matches_nil]
  | case2 mark pattern c rest hf ih =>
    obtain ⟨p, others, rfl, hp, ha⟩ := follows_eq_true.mp hf
    rw [List.tail_cons] at ih ⊢
    rw [ih fun m hm => (h m hm).step hp ha]
    cases mark with
    | none => rw [Sought, Sought, matches_cons_cons hp, and_iff_right ha]
    | some mark => rfl
  | case3 mark pattern c rest hf hp ih =>
    obtain ⟨others, rfl⟩ := List.head?_eq_some_iff.mp hp
    rw [sought_percent h]
    refine ih fun m hm => ?_
    cases hm
    exact Mark.reachesTo_self _
  | case4 mark pattern c rest hf hp later found ih =>
    rw [sought_later h (not_matches_of_stuck hf hp), found]
    simp only [Option.some.injEq, exists_eq_left']
    refine ih fun m hm => ?_
    cases hm
    exact Mark.reachesTo_self _
  | case5 mark pattern c rest hf hp found =>
    rw [sought_later h (not_matches_of_stuck hf hp), found]
    simp

/-! ## The meaning of a pattern -/

/-- A pattern describes a value if the value falls into runs of characters, any run for a `%`, one
character for a `_` and the character itself for every other one; and a search that forgets all
marks but the last finds a match if there is one. -/
theorem describes_declaratively (value pattern : List Char) :
    (describes value pattern = true ↔ FallsInto value pattern) ∧
      search none value pattern = describes value pattern := by
  have hmeaning := describes_iff_matches value pattern
  refine ⟨hmeaning.trans matches_iff_fallsInto, ?_⟩
  have hsearch : search none value pattern = true ↔ Matches value pattern := search_iff_sought nofun
  exact Bool.eq_iff_iff.mpr (hsearch.trans hmeaning.symm)

end TableQuery.Text.Wildcard
