import TableQuery.Proofs.Query.Yields

/-! # Readings that can be completed

A rule decides by the token at hand how to go on, and it blames the first token that does not fit.
So what it has read when it stops, in success or in failure, can be completed to something that it
reads as a whole, if nothing follows that the rule would read on into. This is kept when rules are
put in sequence, and when a token decides between them. -/

namespace TableQuery

namespace Cursor

theorem accept?_eq_none_iff {c : Cursor} {kind : TokenKind} :
    c.accept? kind = none ↔ ∀ t, c.head? = some t → t.kind ≠ kind := by
  refine ⟨fun h t ht hk => ?_, accept?_eq_none⟩
  obtain ⟨rest, rfl⟩ := List.head?_eq_some_iff.mp ht
  rw [accept?_cons rest hk] at h
  cases h

end Cursor

/-! ## Readings -/

/-- What a rule makes of a cursor: the place behind what it reads, or the place where it fails. -/
abbrev Reading := Cursor → Except Cursor Cursor

/-- Where a rule stops. -/
def Parsed.stop {α : Type} {n : Nat} : Parsed α n → Except Cursor Cursor
  | .ok step => .ok step.rest
  | .error failure => .error failure.rest

namespace Parsed

variable {α β : Type} {m n : Nat}

theorem Yields.stop_eq {outcome : Parsed α n} {a : α} {rest : Cursor}
    (h : outcome.Yields a rest) : stop outcome = .ok rest := by
  obtain ⟨_, rfl⟩ := h
  rfl

/-- Where a rule and a reading behind it stop, if the reading depends on the value of the rule. -/
def stopWith (outcome : Parsed α m) (g : α → Reading) : Except Cursor Cursor :=
  match outcome with
  | .ok step => g step.value step.rest
  | .error failure => .error failure.rest

theorem stop_bind_value {outcome : Parsed α m} {next : Step α m → Parsed β n} {g : α → Reading}
    (h : ∀ a rest (hr : rest.length < m), stop (next ⟨a, rest, hr⟩) = g a rest) :
    stop (outcome >>= next) = stopWith outcome g := by
  cases outcome with
  | ok step => exact h step.value step.rest step.shorter
  | error failure => rfl

theorem stop_bind {outcome : Parsed α m} {next : Step α m → Parsed β n} {g : Reading}
    (h : ∀ a rest (hr : rest.length < m), stop (next ⟨a, rest, hr⟩) = g rest) :
    stop (outcome >>= next) = (stop outcome >>= g) := by
  rw [stop_bind_value (g := fun _ => g) h]
  cases outcome <;> rfl

theorem stop_bind_ok {outcome : Parsed α m} {next : Step α m → Parsed β n}
    (h : ∀ a rest (hr : rest.length < m), stop (next ⟨a, rest, hr⟩) = .ok rest) :
    stop (outcome >>= next) = stop outcome := by
  rw [stop_bind_value (g := fun _ => .ok) h]
  cases outcome <;> rfl

end Parsed

namespace Reading

/-- The reading of a rule. -/
def ofRule {α : Type} {bound : Cursor → Nat} (rule : (c : Cursor) → Parsed α (bound c)) : Reading :=
  fun c => Parsed.stop (rule c)

/-- A token of this kind is read, if it is at hand, and decides how to go on. -/
def alt (kind : TokenKind) (f g : Reading) : Reading := fun c =>
  match c.accept? kind with
  | some step => f step.rest
  | none => g c

/-- A token of this kind decides how to go on, and is not read yet. -/
def atToken (kind : TokenKind) (f g : Reading) : Reading := fun c =>
  if c.at? kind then f c else g c

/-- One token of this kind. -/
def token (kind : TokenKind) : Reading := alt kind .ok .error

variable {kind : TokenKind} {f g : Reading} {t : Token} {c rest : Cursor}

theorem seq_eq (h : f c = .ok rest) : (f >=> g) c = g rest := congrArg (· >>= g) h

theorem seq_error (h : f c = .error rest) : (f >=> g) c = .error rest := congrArg (· >>= g) h

theorem alt_cons (ht : t.kind = kind) : alt kind f g (t :: rest) = f rest := by
  rw [alt, Cursor.accept?_cons rest ht]

theorem alt_head : alt kind f g (t :: rest) = if t.kind = kind then f rest else g (t :: rest) := by
  split
  · next ht => exact alt_cons ht
  · next ht => rw [alt, Cursor.accept?_other rest ht]

theorem alt_other (h : c.accept? kind = none) : alt kind f g c = g c := by
  rw [alt, h]

theorem atToken_cons (ht : t.kind = kind) : atToken kind f g (t :: rest) = f (t :: rest) :=
  if_pos (Cursor.at?_cons rest ht)

theorem atToken_other (h : c.accept? kind = none) : atToken kind f g c = g c :=
  if_neg (by simp [Cursor.at?_eq_false h])

end Reading

/-! ## Completions -/

open Reading

/-- What has been read can be completed, whatever stands behind it that `T` allows. -/
def Completes (T : Cursor → Prop) (f : Reading) (read : List Token) : Prop :=
  ∃ more, ∀ s, T s → f (read ++ (more ++ s)) = .ok s

/-- Where a reading succeeds and where it fails it has read something that can be completed, and it
succeeds in front of any tokens that begin like those it has stopped at. -/
structure Completable (T : Cursor → Prop) (f : Reading) (c : Cursor) : Prop where
  ok : ∀ rest, f c = .ok rest → ∃ read, c = read ++ rest ∧ Completes T f read ∧
    ∀ rest', rest'.head? = rest.head? → f (read ++ rest') = .ok rest'
  error : ∀ rest, f c = .error rest → ∃ read, c = read ++ rest ∧ Completes T f read

variable {T T' : Cursor → Prop} {f g : Reading} {c rest : Cursor} {t : Token} {kind : TokenKind}
  {read : List Token}

/-! ### What completes a reading -/

theorem completes_ok : Completes T .ok [] := ⟨[], fun _ _ => rfl⟩

theorem Completes.mono (h : Completes T f read) (hT : ∀ s, T' s → T s) : Completes T' f read := by
  obtain ⟨more, hm⟩ := h
  exact ⟨more, fun s hs => hm s (hT s hs)⟩

theorem Completes.seq (hf : Completes T f read) (next : List Token)
    (hg : ∀ s, T' s → T (next ++ s) ∧ g (next ++ s) = .ok s) : Completes T' (f >=> g) read := by
  obtain ⟨more, hm⟩ := hf
  refine ⟨more ++ next, fun s hs => ?_⟩
  obtain ⟨ht, hs⟩ := hg s hs
  rw [List.append_assoc]
  exact (seq_eq (hm _ ht)).trans hs

/-- A reading that begins with a token goes on like another one behind it. -/
theorem Completes.cons (h : Completes T g read) (hf : ∀ r, f (t :: r) = g r) :
    Completes T f (t :: read) := by
  obtain ⟨more, hm⟩ := h
  exact ⟨more, fun s hs => (hf _).trans (hm s hs)⟩

/-- A token of a kind. -/
def sample (kind : TokenKind) : Token := ⟨kind, "", none, .start⟩

theorem alt_sample : alt kind f g (sample kind :: rest) = f rest := alt_cons rfl

theorem token_seq_sample : (token kind >=> g) (sample kind :: rest) = g rest := seq_eq alt_sample

theorem Completes.alt (h : Completes T f []) : Completes T (alt kind f g) [] := by
  obtain ⟨more, hm⟩ := h
  exact ⟨sample kind :: more, fun s hs => alt_sample.trans (hm s hs)⟩

theorem completes_token : Completes T (token kind) [] := completes_ok.alt

theorem Completes.token_seq (h : Completes T g []) : Completes T (token kind >=> g) [] := by
  obtain ⟨more, hm⟩ := h
  exact ⟨sample kind :: more, fun s hs => token_seq_sample.trans (hm s hs)⟩

/-! ### Ways to read -/

theorem Completable.mono (h : Completable T f c) (hT : ∀ s, T' s → T s) : Completable T' f c where
  ok rest hr := by
    obtain ⟨read, hc, hm, hl⟩ := h.ok rest hr
    exact ⟨read, hc, hm.mono hT, hl⟩
  error rest hr := by
    obtain ⟨read, hc, hm⟩ := h.error rest hr
    exact ⟨read, hc, hm.mono hT⟩

/-- Where nothing is left, nothing has been read. -/
theorem Completable.completes (h : Completable T f []) : Completes T f [] := by
  cases hf : f [] with
  | ok rest =>
    obtain ⟨read, hc, hm, -⟩ := h.ok rest hf
    rwa [(List.nil_eq_append_iff.mp hc).1] at hm
  | error rest =>
    obtain ⟨read, hc, hm⟩ := h.error rest hf
    rwa [(List.nil_eq_append_iff.mp hc).1] at hm

/-- A reading that stops at once, in success. -/
theorem completable_ok (h : ∀ r, r.head? = c.head? → f r = .ok r) (hm : Completes T f []) :
    Completable T f c where
  ok rest hr := by
    cases (h c rfl).symm.trans hr
    exact ⟨[], rfl, hm, h⟩
  error rest hr := by
    cases (h c rfl).symm.trans hr

/-- A reading that stops at once, in failure. -/
theorem completable_error (h : f c = .error c) (hm : Completes T f []) : Completable T f c where
  ok rest hr := by
    cases h.symm.trans hr
  error rest hr := by
    cases h.symm.trans hr
    exact ⟨[], rfl, hm⟩

/-- A reading that goes on behind the first token. -/
theorem Completable.cons (hg : Completable T g rest) (hf : ∀ r, f (t :: r) = g r) :
    Completable T f (t :: rest) where
  ok last hr := by
    obtain ⟨read, rfl, hm, hl⟩ := hg.ok last ((hf rest).symm.trans hr)
    exact ⟨t :: read, rfl, hm.cons hf, fun r hr => (hf _).trans (hl r hr)⟩
  error last hr := by
    obtain ⟨read, rfl, hm⟩ := hg.error last ((hf rest).symm.trans hr)
    exact ⟨t :: read, rfl, hm.cons hf⟩

/-- A reading that is another one where the first token is the one at hand. -/
theorem Completable.branch (hg : Completable T g c) (hf : ∀ r, r.head? = c.head? → f r = g r)
    (hm : Completes T f []) : Completable T f c := by
  -- what has been read begins with the token at hand, unless it is nothing
  have hcompletes (read rest : List Token) (hc : c = read ++ rest) (h : Completes T g read) :
      Completes T f read := by
    cases read with
    | nil => exact hm
    | cons u read =>
      obtain ⟨more, hm⟩ := h
      exact ⟨more, fun s hs => (hf _ (by rw [hc]; rfl)).trans (hm s hs)⟩
  constructor
  · intro rest hr
    obtain ⟨read, hc, hm, hl⟩ := hg.ok rest ((hf c rfl).symm.trans hr)
    refine ⟨read, hc, hcompletes read rest hc hm, fun r hr => (hf _ ?_).trans (hl r hr)⟩
    rw [hc, List.head?_append, List.head?_append, hr]
  · intro rest hr
    obtain ⟨read, hc, hm⟩ := hg.error rest ((hf c rfl).symm.trans hr)
    exact ⟨read, hc, hcompletes read rest hc hm⟩

theorem Completable.seq (hf : Completable T f c)
    (hg : ∀ rest, rest.length ≤ c.length → Completable T' g rest) (next : List Token)
    (hnext : ∀ s, T' s → T (next ++ s) ∧ g (next ++ s) = .ok s) : Completable T' (f >=> g) c := by
  -- what both have read is completed by what completes the second one, if that has read something
  have hcompletes (first second rest : List Token) (hm : Completes T f first)
      (hl : ∀ r, r.head? = (second ++ rest).head? → f (first ++ r) = .ok r)
      (h : Completes T' g second) : Completes T' (f >=> g) (first ++ second) := by
    cases second with
    | nil =>
      rw [List.append_nil]
      exact hm.seq next hnext
    | cons u second =>
      obtain ⟨more, hm⟩ := h
      refine ⟨more, fun s hs => ?_⟩
      rw [List.append_assoc]
      exact (seq_eq (hl (u :: second ++ (more ++ s)) rfl)).trans (hm s hs)
  constructor
  · intro rest hr
    cases hfirst : f c with
    | error stop => cases (seq_error hfirst).symm.trans hr
    | ok middle =>
      obtain ⟨first, rfl, hm, hl⟩ := hf.ok middle hfirst
      have hsecond : g middle = .ok rest := by
        rw [← hr]
        exact (seq_eq hfirst).symm
      obtain ⟨second, rfl, hm', hl'⟩ := (hg middle (by simp)).ok rest hsecond
      refine ⟨first ++ second, by simp, hcompletes first second rest hm hl hm', fun r hr => ?_⟩
      have hhead : (second ++ r).head? = (second ++ rest).head? := by
        rw [List.head?_append, List.head?_append, hr]
      rw [List.append_assoc]
      exact (seq_eq (hl _ hhead)).trans (hl' r hr)
  · intro rest hr
    cases hfirst : f c with
    | error stop =>
      cases (seq_error hfirst).symm.trans hr
      obtain ⟨first, rfl, hm⟩ := hf.error rest hfirst
      exact ⟨first, rfl, hm.seq next hnext⟩
    | ok middle =>
      obtain ⟨first, rfl, hm, hl⟩ := hf.ok middle hfirst
      have hsecond : g middle = .error rest := by
        rw [← hr]
        exact (seq_eq hfirst).symm
      obtain ⟨second, rfl, hm'⟩ := (hg middle (by simp)).error rest hsecond
      exact ⟨first ++ second, by simp, hcompletes first second rest hm hl hm'⟩

/-! ### Decisions -/

/-- A reading that stops at once, whatever is at hand. -/
theorem completable_stop : Completable T .ok c := completable_ok (fun _ _ => rfl) completes_ok

theorem completable_alt (hf : ∀ rest, rest.length < c.length → Completable T f rest)
    (hg : c.accept? kind = none → g c = .error c ∨ Completable T g c)
    (hm : Completes T (alt kind f g) []) : Completable T (alt kind f g) c := by
  cases ha : c.accept? kind with
  | some step =>
    obtain ⟨t, rest, hr⟩ := step
    obtain ⟨ht, rfl⟩ := Cursor.accept?_eq_some ha
    exact (hf rest hr).cons fun r => alt_cons ht
  | none =>
    have hsame (r : Cursor) (hr : r.head? = c.head?) : alt kind f g r = g r := by
      refine alt_other (Cursor.accept?_eq_none_iff.mpr ?_)
      rw [hr]
      exact Cursor.accept?_eq_none_iff.mp ha
    rcases hg ha with hg | hg
    · exact completable_error ((hsame c rfl).trans hg) hm
    · exact hg.branch hsame hm

theorem completable_atToken (hf : f c = .error c ∨ Completable T f c)
    (hg : c.accept? kind = none → Completable T g c) (hm : Completes T (atToken kind f g) []) :
    Completable T (atToken kind f g) c := by
  cases ha : c.accept? kind with
  | some step =>
    obtain ⟨t, rest, hr⟩ := step
    obtain ⟨ht, rfl⟩ := Cursor.accept?_eq_some ha
    have hsame (r : Cursor) (hr : r.head? = some t) : atToken kind f g r = f r := by
      obtain ⟨more, rfl⟩ := List.head?_eq_some_iff.mp hr
      exact atToken_cons ht
    rcases hf with hf | hf
    · exact completable_error ((hsame _ rfl).trans hf) hm
    · exact hf.branch hsame hm
  | none =>
    refine (hg ha).branch (fun r hr => atToken_other (Cursor.accept?_eq_none_iff.mpr ?_)) hm
    rw [hr]
    exact Cursor.accept?_eq_none_iff.mp ha

theorem completable_token : Completable T (token kind) c :=
  completable_alt (fun _ _ => completable_stop) (fun _ => .inl rfl) completes_token

/-- Something that begins with a token of its own, or nothing. -/
theorem completable_option (hf : ∀ rest, rest.length < c.length → Completable T f rest)
    (hT : ∀ s, T s → s.accept? kind = none) : Completable T (alt kind f .ok) c :=
  completable_alt hf (fun _ => .inr completable_stop) ⟨[], fun s hs => alt_other (hT s hs)⟩

theorem completable_token_seq (hg : ∀ rest, rest.length ≤ c.length → Completable T g rest)
    (hm : Completes T g []) : Completable T (token kind >=> g) c := by
  obtain ⟨more, hm⟩ := hm
  exact (completable_token (T := fun _ => True)).seq hg more fun s hs => ⟨trivial, hm s hs⟩

/-! ### Closing tokens -/

section

variable (hk : ∀ rest, T (sample kind :: rest))
include hk

theorem Completes.closed (hf : Completes T f []) : Completes T' (f >=> token kind) [] :=
  hf.seq [sample kind] fun s _ => ⟨hk s, alt_sample⟩

theorem Completes.closed_seq (hf : Completes T f []) (hg : Completes T' g []) :
    Completes T' (f >=> token kind >=> g) [] := by
  obtain ⟨more, hm⟩ := hg
  exact hf.seq (sample kind :: more) fun s hs => ⟨hk _, token_seq_sample.trans (hm s hs)⟩

theorem Completable.closed (hf : Completable T f c) : Completable T' (f >=> token kind) c :=
  hf.seq (fun _ _ => completable_token) [sample kind] fun s _ => ⟨hk s, alt_sample⟩

theorem Completable.closed_seq (hf : Completable T f c)
    (hg : ∀ rest, rest.length ≤ c.length → Completable T' g rest) (hm : Completes T' g []) :
    Completable T' (f >=> token kind >=> g) c := by
  have hnext (rest : Cursor) (hr : rest.length ≤ c.length) :
      Completable T' (token kind >=> g) rest :=
    completable_token_seq (fun r hle => hg r (Nat.le_trans hle hr)) hm
  obtain ⟨more, hm⟩ := hm
  exact hf.seq hnext (sample kind :: more) fun s hs => ⟨hk _, token_seq_sample.trans (hm s hs)⟩

end

end TableQuery
