import TableQuery.Proofs.Query.Everywhere
import TableQuery.Proofs.Query.Grammar

/-! # Balanced queries

A property that every rule of the grammar gives to the expression it builds holds everywhere in what
is read. Balance is one of them: each `case` that is read from a text, also in nested queries, has
one result for each condition. -/

namespace TableQuery

section

variable {P : Expr → Prop} {query : Select}

/-- What holds everywhere in the parts of a query and in its grouping keys holds everywhere in
it. -/
theorem Select.PartsHold.everywhere
    (h : query.PartsHold (Expr.Everywhere P) (Select.Everywhere P))
    (hk : ∀ key ∈ query.groupBy, key.Everywhere P) : query.Everywhere P := by
  refine .intro (fun child hc => ?_) fun ref hr inner hq => ?_
  · simp only [children, List.mem_append, List.mem_map, List.mem_filterMap,
      Option.mem_toList] at hc
    rcases hc with (((((⟨column, hm, rfl⟩ | ⟨join, hm, he⟩) | he) | hm) | he) | he) | he
    · exact h.columns column hm
    · exact h.conditions join hm child he
    · exact h.filter child he
    · exact hk child hm
    · exact h.having child he
    · exact h.limit child he
    · exact h.offset child he
  · obtain ⟨pos, source | body, label⟩ := ref
    · cases hq
    · cases hq
      rcases List.mem_append.mp hr with hr | hr
      · exact h.source _ (Option.mem_toList.mp hr) inner rfl
      · obtain ⟨join, hj, ht⟩ := List.mem_map.mp hr
        exact h.joins join hj inner (by rw [ht])

/-- An expression without a query directly in it. -/
theorem Expr.everywhere_of_children {expr : Expr} (hp : P expr) (hq : expr.childQuery? = none)
    (hc : ∀ child ∈ expr.children, child.Everywhere P) : expr.Everywhere P :=
  .intro hp hc fun query h => by
    rw [hq] at h
    cases h

/-- An expression that holds a query and no other expression. -/
theorem Expr.everywhere_of_query {expr : Expr} (hp : P expr) (hc : expr.children = [])
    (hq : expr.childQuery? = some query) (h : query.Everywhere P) : expr.Everywhere P := by
  refine .intro hp (by simp [hc]) fun other ho => ?_
  cases hq.symm.trans ho
  exact h

end

namespace Grammar

variable {N : String → Prop} {P : Nat → Expr → Prop} {R : Expr → Prop}

/-- If each rule builds an expression with a property of its operands' properties alone, then the
property holds everywhere in what the rules build. -/
theorem Builds.everywhere (B : Builds N P fun _ => True)
    (h : ∀ {level : Nat} {expr : Expr}, P level expr → R expr) :
    Builds N (fun level expr => P level expr ∧ expr.Everywhere R) (Select.Everywhere R) := by
  have hplain {level : Nat} {expr : Expr} (hp : P level expr) (hq : expr.childQuery? = none)
      (hc : ∀ child ∈ expr.children, child.Everywhere R) : P level expr ∧ expr.Everywhere R :=
    ⟨hp, Expr.everywhere_of_children (h hp) hq hc⟩
  have hnested {level : Nat} {expr : Expr} {query : Select} (hp : P level expr)
      (hc : expr.children = []) (hq : expr.childQuery? = some query)
      (hquery : query.Everywhere R) : P level expr ∧ expr.Everywhere R :=
    ⟨hp, Expr.everywhere_of_query (h hp) hc hq hquery⟩
  exact
    { loosen := fun he => ⟨B.loosen he.1, he.2⟩
      operator := fun {_ _ _ left right} pos hn hopen hl hr => by
        have hchildren : ∀ child ∈ [left, right], child.Everywhere R :=
          List.forall_mem_cons.mpr ⟨hl.2, List.forall_mem_singleton.mpr hr.2⟩
        have hp := B.operator pos hn hopen hl.1 hr.1
        rcases operatorNode?_cases hn with ⟨op, rfl⟩ | ⟨op, rfl⟩
        · exact hplain hp rfl hchildren
        · exact hplain hp rfl hchildren
      not := fun pos he => hplain (B.not pos he.1) rfl (List.forall_mem_singleton.mpr he.2)
      negate := fun pos he => hplain (B.negate pos he.1) rfl (List.forall_mem_singleton.mpr he.2)
      member := fun pos hs hne hi => hplain (B.member pos hs.1 hne fun item hm => (hi item hm).1) rfl
        (List.forall_mem_cons.mpr ⟨hs.2, fun item hm => (hi item hm).2⟩)
      between := fun pos hs hl hh => hplain (B.between pos hs.1 hl.1 hh.1) rfl
        (List.forall_mem_cons.mpr ⟨hs.2, List.forall_mem_cons.mpr
          ⟨hl.2, List.forall_mem_singleton.mpr hh.2⟩⟩)
      like := fun pos ignoreCase hs hp => hplain (B.like pos ignoreCase hs.1 hp.1) rfl
        (List.forall_mem_cons.mpr ⟨hs.2, List.forall_mem_singleton.mpr hp.2⟩)
      isNull := fun pos hc he => hplain (B.isNull pos hc he.1) rfl
        (List.forall_mem_singleton.mpr he.2)
      refused := fun pos ht he => hplain (B.refused pos ht he.1) rfl
        (List.forall_mem_singleton.mpr he.2)
      call := fun pos hstar hc ha => hplain (B.call pos hstar hc.1 fun arg hm => (ha arg hm).1) rfl
        (List.forall_mem_cons.mpr ⟨hc.2, fun arg hm => (ha arg hm).2⟩)
      literal := fun pos v => hplain (B.literal pos v) rfl (List.forall_mem_nil _)
      column := fun href => hplain (B.column href) rfl (List.forall_mem_nil _)
      group := fun pos he => hplain (B.group pos he.1) rfl (List.forall_mem_singleton.mpr he.2)
      existence := fun pos hq => hnested (B.existence pos trivial) rfl rfl hq
      subquery := fun hq => hnested (B.subquery trivial) rfl rfl hq
      case := fun {_ _ _} pos hne hb hw ht ho => by
        refine hplain (B.case pos hne hb (fun e hm => (hw e hm).1) (fun e hm => (ht e hm).1)
          fun e he => (ho e he).1) rfl fun child hc => ?_
        simp only [Expr.children, List.mem_append, Option.mem_toList] at hc
        rcases hc with (hc | hc) | hc
        · exact (hw child hc).2
        · exact (ht child hc).2
        · exact (ho child hc).2
      select := fun hparts hkeys _ _ =>
        (hparts.mono fun _ he => he.2).everywhere fun key hk => (hkeys key hk).2 }

/-- The rules of the grammar build a `case` with as many results as conditions. -/
theorem builds_balanced : Builds N (fun _ => Expr.Balanced) fun _ => True where
  loosen h := h
  operator pos hn _ _ _ := by
    rcases operatorNode?_cases hn with ⟨op, rfl⟩ | ⟨op, rfl⟩ <;> trivial
  not _ _ := trivial
  negate _ _ := trivial
  member _ _ _ _ := trivial
  between _ _ _ _ := trivial
  like _ _ _ _ := trivial
  isNull _ _ _ := trivial
  refused _ _ _ := trivial
  call _ _ _ _ := trivial
  literal _ _ := trivial
  column _ := trivial
  group _ _ := trivial
  existence _ _ := trivial
  subquery _ := trivial
  case _ _ hb _ _ _ := hb
  select _ _ _ _ := trivial

end Grammar

/-- What a text reads as is balanced, and if it cannot be read, either the scanner has met a fault
or a token is to blame. -/
theorem Select.ofText?_balanced (text : String) :
    (∀ query, ofText? text = .ok query → query.Everywhere Expr.Balanced) ∧
    ∀ e, ofText? text = .error e →
      (∃ fault, Token.scan? text = .error fault ∧ e = .scan fault) ∨ e.token?.isSome :=
  Grammar.read_sound (N := fun _ => True)
    (Grammar.single_sound (Grammar.builds_balanced.everywhere fun h => h)) fun _ _ _ _ _ => trivial

end TableQuery
