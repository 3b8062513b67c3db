import Mathlib.Data.List.Forall2

/-! # Loops

Going through a list in a monad: what the outcome depends on, and where the results of a loop
without failure come from. -/

namespace TableQuery

variable {α β ε : Type}

theorem mapM_congr_of_mem {m : Type → Type} [Monad m] [LawfulMonad m] {f g : α → m β} :
    ∀ {as : List α}, (∀ a ∈ as, f a = g a) → as.mapM f = as.mapM g
  | [], _ => rfl
  | a :: rest, h => by
    rw [List.mapM_cons, List.mapM_cons, h a List.mem_cons_self,
      mapM_congr_of_mem fun b hb => h b (List.mem_cons_of_mem _ hb)]

theorem foldlM_congr_of_mem {m : Type → Type} [Monad m] {f g : β → α → m β} :
    ∀ {as : List α}, (∀ b, ∀ a ∈ as, f b a = g b a) → ∀ {b : β}, as.foldlM f b = as.foldlM g b
  | [], _, _ => rfl
  | a :: rest, h, b => by
    rw [List.foldlM_cons, List.foldlM_cons, h b a List.mem_cons_self]
    congr 1
    exact funext fun c => foldlM_congr_of_mem fun d e he => h d e (List.mem_cons_of_mem _ he)

theorem exists_ok_of_bind {act : Except ε α} {next : α → Except ε β} {b : β}
    (h : (act >>= next) = .ok b) : ∃ a, act = .ok a ∧ next a = .ok b := by
  cases act with
  | error e => cases h
  | ok a => exact ⟨a, rfl, h⟩

theorem error_of_bind {act : Except ε α} {next : α → Except ε β} {e : ε}
    (h : (act >>= next) = .error e) :
    act = .error e ∨ ∃ a, act = .ok a ∧ next a = .error e := by
  cases act with
  | error d =>
    cases h
    exact .inl rfl
  | ok a => exact .inr ⟨a, rfl, h⟩

theorem exists_mem_of_mapM {f : α → Except ε β} : ∀ {as : List α} {bs : List β},
    as.mapM f = .ok bs → ∀ b ∈ bs, ∃ a ∈ as, f a = .ok b
  | [], bs, h => by
    cases h
    exact fun b hb => nomatch hb
  | a :: rest, bs, h => by
    rw [List.mapM_cons] at h
    obtain ⟨first, hf, h⟩ := exists_ok_of_bind h
    obtain ⟨others, ho, h⟩ := exists_ok_of_bind h
    cases h
    refine List.forall_mem_cons.mpr ⟨⟨a, List.mem_cons_self, hf⟩, fun b hb => ?_⟩
    obtain ⟨a', ha, he⟩ := exists_mem_of_mapM ho b hb
    exact ⟨a', List.mem_cons_of_mem _ ha, he⟩

/-- What holds at the start of a loop and is kept by every round holds at its end. -/
theorem foldlM_ok {Q : β → Prop} {step : β → α → Except ε β} :
    ∀ {as : List α} {b c : β}, Q b →
      (∀ a ∈ as, ∀ b c, Q b → step b a = .ok c → Q c) → as.foldlM step b = .ok c → Q c
  | [], b, c, hb, _, h => by cases h; exact hb
  | a :: rest, b, c, hb, hs, h => by
    rw [List.foldlM_cons] at h
    obtain ⟨next, hn, h⟩ := exists_ok_of_bind h
    exact foldlM_ok (hs a List.mem_cons_self b next hb hn)
      (fun a' ha => hs a' (List.mem_cons_of_mem _ ha)) h

/-! ## Element by element -/

/-- A loop without failure yields one result for each element. -/
theorem forall₂_of_mapM {f : α → Except ε β} : ∀ {as : List α} {bs : List β},
    as.mapM f = .ok bs → List.Forall₂ (fun a b => f a = .ok b) as bs
  | [], bs, h => by
    cases h
    exact .nil
  | a :: rest, bs, h => by
    rw [List.mapM_cons] at h
    obtain ⟨first, hf, h⟩ := exists_ok_of_bind h
    obtain ⟨others, ho, h⟩ := exists_ok_of_bind h
    cases h
    exact .cons hf (forall₂_of_mapM ho)

theorem mapM_of_forall₂ {f : α → Except ε β} {as : List α} {bs : List β}
    (h : List.Forall₂ (fun a b => f a = .ok b) as bs) : as.mapM f = .ok bs := by
  induction h with
  | nil => rfl
  | cons hab _ ih =>
    rw [List.mapM_cons, hab, ih]
    rfl

/-- A loop fails only where it fails for an element. -/
theorem exists_error_of_mapM {f : α → Except ε β} {e : ε} : ∀ {as : List α},
    as.mapM f = .error e → ∃ a ∈ as, f a = .error e
  | [], h => by cases h
  | a :: rest, h => by
    rw [List.mapM_cons] at h
    rcases error_of_bind h with ha | ⟨b, -, h⟩
    · exact ⟨a, List.mem_cons_self, ha⟩
    rcases error_of_bind h with hrest | ⟨bs, -, h⟩
    · obtain ⟨a', hm, he⟩ := exists_error_of_mapM hrest
      exact ⟨a', List.mem_cons_of_mem _ hm, he⟩
    · cases h

theorem forall₂_getElem? {R : α → β → Prop} {as : List α} {bs : List β}
    (h : List.Forall₂ R as bs) : ∀ {i : Nat} {a : α}, as[i]? = some a →
      ∃ b, bs[i]? = some b ∧ R a b := by
  induction h with
  | nil => exact nofun
  | @cons a b as bs hab _ ih =>
    intro i c hc
    cases i with
    | zero =>
      cases hc
      exact ⟨b, rfl, hab⟩
    | succ i => exact ih hc

theorem exists_mem_of_forall₂ {R : α → β → Prop} {as : List α} {bs : List β}
    (h : List.Forall₂ R as bs) {a : α} (ha : a ∈ as) : ∃ b ∈ bs, R a b := by
  obtain ⟨i, hi⟩ := List.mem_iff_getElem?.mp ha
  obtain ⟨b, hb, hr⟩ := forall₂_getElem? h hi
  exact ⟨b, List.mem_of_getElem? hb, hr⟩

theorem map_eq_map_of_forall₂ {γ : Type} {f : α → γ} {g : β → γ} {as : List α} {bs : List β}
    (h : List.Forall₂ (fun a b => f a = g b) as bs) : as.map f = bs.map g := by
  induction h with
  | nil => rfl
  | cons hab _ ih => rw [List.map_cons, List.map_cons, hab, ih]

end TableQuery
