import TableQuery.Proofs.Query.Grammar

/-! # Names come from the text

The names that a query mentions are identifiers of the text that it is read from. The grammar makes
up no names, at whatever depth. -/

namespace TableQuery

variable {N : String → Prop}

theorem ColumnRef.Named.among {ref : ColumnRef} (h : ref.Named N) : (Mention.column ref).Among N :=
  fun name hn => h.table name (Option.mem_toList.mp hn)

theorem TableRef.Named.among {ref : TableRef} (h : ref.Named N) : ref.mention.Among N := by
  intro name hn
  rcases List.mem_append.mp hn with hn | hn
  · obtain ⟨pos, source | query, label⟩ := ref
    · cases List.mem_singleton.mp hn
      exact h.source _ rfl
    · cases hn
  · exact h.label name (Option.mem_toList.mp hn)

/-- The mentions of a table reference, those of its query included. -/
theorem TableRef.Named.mentions_among {ref : TableRef} (h : ref.Named N)
    (hq : ∀ inner, ref.source = .subquery inner → ∀ m ∈ inner.mentions, m.Among N) :
    ∀ m ∈ ref.mentions, m.Among N := by
  obtain ⟨pos, source | query, label⟩ := ref
  · exact List.forall_mem_singleton.mpr h.among
  · exact List.forall_mem_cons.mpr ⟨h.among, hq query rfl⟩

section

variable {es : List Expr} {e? : Option Expr} {query : Select}

theorem eachMentions_among (h : ∀ e ∈ es, ∀ m ∈ e.mentions, m.Among N) :
    ∀ m ∈ eachMentions es, m.Among N := by
  intro m hm
  obtain ⟨e, he, hm⟩ := mem_eachMentions.mp hm
  exact h e he m hm

theorem optionMentions_among (h : ∀ e, e? = some e → ∀ m ∈ e.mentions, m.Among N) :
    ∀ m ∈ optionMentions e?, m.Among N := by
  intro m hm
  obtain ⟨e, he, hm⟩ := mem_optionMentions.mp hm
  exact h e he m hm

theorem Select.mentions_among
    (hparts : query.PartsHold (fun e => ∀ m ∈ e.mentions, m.Among N)
      fun inner => ∀ m ∈ inner.mentions, m.Among N)
    (hgroup : ∀ key ∈ query.groupBy, ∀ m ∈ key.mentions, m.Among N) (hnamed : query.Named N) :
    ∀ m ∈ query.mentions, m.Among N := by
  obtain ⟨pos, star, columns, source, joins, filter, groupBy, having, orderBy, limit, offset⟩ :=
    query
  have hcolumns : ∀ m ∈ columnsMentions columns, m.Among N := by
    intro m hm
    obtain ⟨column, hc, hm⟩ := mem_columnsMentions.mp hm
    exact hparts.columns column hc m hm
  have hsource : ∀ m ∈ sourceMentions source, m.Among N := by
    cases source with
    | none => exact List.forall_mem_nil _
    | some ref => exact (hnamed.source ref rfl).mentions_among (hparts.source ref rfl)
  have hjoins : ∀ m ∈ joinsMentions joins, m.Among N := by
    intro m hm
    obtain ⟨join, hj, hm | hm⟩ := mem_joinsMentions.mp hm
    · exact (hnamed.joins join hj).mentions_among (hparts.joins join hj) m hm
    · exact optionMentions_among (hparts.conditions join hj) m hm
  have horder : ∀ m ∈ orderBy.map (fun key => Mention.column key.column), m.Among N := by
    intro m hm
    obtain ⟨key, hk, rfl⟩ := List.mem_map.mp hm
    exact (hnamed.orderBy key hk).among
  simp only [mentions, List.forall_mem_append]
  exact ⟨⟨⟨⟨⟨⟨⟨⟨hcolumns, hsource⟩, hjoins⟩, optionMentions_among hparts.filter⟩,
    eachMentions_among hgroup⟩, optionMentions_among hparts.having⟩, horder⟩,
    optionMentions_among hparts.limit⟩, optionMentions_among hparts.offset⟩

end

open Grammar

/-- Every rule puts together what it has read. -/
theorem Grammar.builds_among : Builds N (fun _ e => ∀ m ∈ e.mentions, m.Among N)
    fun query => ∀ m ∈ query.mentions, m.Among N where
  loosen h := h
  operator pos hn _ hl hr := by
    rcases operatorNode?_cases hn with ⟨op, rfl⟩ | ⟨op, rfl⟩
    all_goals exact List.forall_mem_append.mpr ⟨hl, hr⟩
  not _ h := h
  negate _ h := h
  member _ hs _ hi := List.forall_mem_append.mpr ⟨hs, eachMentions_among hi⟩
  between _ hs hl hh := List.forall_mem_append.mpr ⟨List.forall_mem_append.mpr ⟨hs, hl⟩, hh⟩
  like _ _ hs hp := List.forall_mem_append.mpr ⟨hs, hp⟩
  isNull _ _ h := h
  refused _ _ h := h
  call _ _ _ ha := eachMentions_among ha
  literal _ _ := List.forall_mem_nil _
  column h := List.forall_mem_singleton.mpr h.among
  group _ h := h
  existence _ h := h
  subquery h := h
  case _ _ _ hw ht ho := List.forall_mem_append.mpr
    ⟨List.forall_mem_append.mpr ⟨eachMentions_among hw, eachMentions_among ht⟩,
      optionMentions_among ho⟩
  select hparts hgroup _ hnamed := Select.mentions_among hparts hgroup hnamed

/-- What holds of all identifiers of a text holds of all names that its query mentions. -/
theorem Select.ofText?_among {text : String} {query : Select}
    (hN : ∀ tokens, Token.scan? text = .ok tokens → Cursor.Names N tokens)
    (h : ofText? text = .ok query) : ∀ m ∈ query.mentions, m.Among N :=
  (read_sound (single_sound builds_among) hN).1 query h

end TableQuery
