import TableQuery.Proofs.Table.Document

/-! # Tables written as documents

A table becomes an array with an object for each row, and is read back from it: with distinct fields
no member takes the place of another, so that each object names all fields in their order. Only the
fields of a table without rows and numbers that are not finite are lost. -/

namespace TableQuery

open Document

/-! ## Members -/

namespace Document

/-- The number is somewhere in the document. -/
inductive HasNumber : Document → Number → Prop where
  | number (n : Number) : HasNumber (.number n) n
  | item {items : List Document} {item : Document} {n : Number} (hi : item ∈ items)
    (hn : item.HasNumber n) : HasNumber (.array items) n
  | member {members : List (String × Document)} {member : String × Document} {n : Number}
    (hm : member ∈ members) (hn : member.2.HasNumber n) : HasNumber (.object members) n

/-- All numbers of the document are finite; in JSON there are no others. -/
def Finite (document : Document) : Prop := ∀ n, document.HasNumber n → n.isFinite

theorem insertMember_of_notMem {name : String} {content : Document}
    {members : List (String × Document)} (h : name ∉ members.map (·.1)) :
    insertMember name content members = members ++ [(name, content)] := by
  induction members with
  | nil => rfl
  | cons member rest ih =>
    rw [List.map_cons, List.mem_cons, not_or] at h
    rw [insertMember, if_neg (Ne.symm h.1), ih h.2]
    rfl

/-- Members with distinct names are all kept as they are. -/
theorem ofMembers_of_nodup {members : List (String × Document)}
    (h : (members.map (·.1)).Nodup) : ofMembers members = object members := by
  have hfold : members.foldl (fun done member => insertMember member.1 member.2 done) [] =
      members := by
    induction members using List.reverseRecOn with
    | nil => rfl
    | append_singleton members member ih =>
      rw [List.map_append, List.nodup_append] at h
      rw [List.foldl_append, ih h.1]
      refine insertMember_of_notMem fun hm => ?_
      exact h.2.2 _ hm _ List.mem_cons_self rfl
  rw [ofMembers, hfold]

end Document

theorem Value.holds_toDocument {v : Value} (h : ∀ n, v = .number n → n.isFinite) :
    v.toDocument.Holds v := by
  cases v with
  | null => exact .null
  | boolean b => exact .boolean b
  | text s => exact .text s
  | number n =>
    rw [toDocument, if_pos (h n rfl)]
    exact .number n

/-! ## First occurrences -/

/-- What the fields are is settled by the names. -/
theorem FirstSeen.unique {names fields fields' : List String} (h : FirstSeen names fields)
    (h' : FirstSeen names fields') : fields = fields' := by
  refine List.Perm.eq_of_pairwise (fun a b _ _ hab hba => ?_) h.order h'.order ?_
  · exact absurd hba (Nat.lt_asymm hab)
  · exact (List.perm_ext_iff_of_nodup h.nodup h'.nodup).mpr fun name =>
      (h.mem name).trans (h'.mem name).symm

/-- Names that are given again and again are first seen in the order of the first time. -/
theorem FirstSeen.repeated {fields : List String} (h : fields.Nodup) {rest : List String}
    (hr : ∀ name ∈ rest, name ∈ fields) : FirstSeen (fields ++ rest) fields where
  nodup := h
  mem name := ⟨List.mem_append_left rest, fun hn => (List.mem_append.mp hn).elim id (hr name)⟩
  order := by
    refine List.pairwise_iff_getElem.mpr fun i j hi hj hlt => ?_
    rwa [List.idxOf_append_of_mem (List.getElem_mem hi),
      List.idxOf_append_of_mem (List.getElem_mem hj), h.idxOf_getElem, h.idxOf_getElem]

namespace Table

/-! ## Rows -/

/-- The members of the object of a row. -/
def cellMembers (fields : List String) (values : List Value) : List (String × Document) :=
  (fields.zip values).map fun cell => (cell.1, cell.2.toDocument)

variable {fields : List String} {vs : List Value}

theorem names_cellMembers (h : vs.length = fields.length) :
    (cellMembers fields vs).map (·.1) = fields := by
  rw [cellMembers, List.map_map]
  exact List.map_fst_zip (Nat.le_of_eq h.symm)

theorem entries_holding (name : String) (h : vs.length = fields.length) :
    (Row.holding name fields vs).entries = fields.zip vs := by
  have hvalue : ∀ column ∈ Column.ofFields name fields,
      (vs[column.index]?).map (fun v => (column.label, v)) =
        some (column.label, vs.getD column.index .null) := by
    intro column hc
    obtain ⟨i, hi, rfl⟩ := List.mem_mapIdx.mp hc
    have hi' : i < vs.length := h ▸ hi
    simp [hi']
  rw [Row.entries, Row.holding, List.filterMap_eq_map_iff_forall_eq_some.mpr hvalue]
  refine List.ext_getElem (by simp [h]) fun i hi hz => ?_
  have hi' : i < vs.length := by simpa [h] using hi
  simp [Column.ofFields, hi']

theorem rowDocument_holding (name : String) (hn : fields.Nodup)
    (h : vs.length = fields.length) :
    rowDocument (.holding name fields vs) = .object (cellMembers fields vs) := by
  rw [rowDocument, entries_holding name h]
  refine ofMembers_of_nodup ?_
  exact (names_cellMembers h).symm ▸ hn

theorem memberValue_cellMembers (hn : fields.Nodup) (h : vs.length = fields.length)
    (hf : ∀ n, .number n ∈ vs → n.isFinite) :
    List.Forall₂ (MemberValue (cellMembers fields vs)) fields vs := by
  refine List.forall₂_iff_zip.mpr ⟨h.symm, fun {field v} hm => ?_⟩
  refine .present (member?_of_mem ?_ (List.mem_map.mpr ⟨(field, v), hm, rfl⟩)) ?_
  · exact (names_cellMembers h).symm ▸ hn
  · refine Value.holds_toDocument fun n he => hf n ?_
    exact he ▸ (List.of_mem_zip hm).2

/-! ## Tables -/

theorem fieldsOf_cellMembers {values : List (List Value)} (hn : fields.Nodup)
    (hl : ∀ vs ∈ values, vs.length = fields.length) (he : fields ≠ [] → values ≠ []) :
    fieldsOf (values.map (cellMembers fields)) = fields := by
  refine (firstSeen_eraseDups _).unique ?_
  cases values with
  | nil =>
    obtain rfl : fields = [] := by_contra fun hne => he hne rfl
    exact ⟨hn, fun _ => Iff.rfl, .nil⟩
  | cons first rest =>
    rw [List.map_cons, List.flatMap_cons, names_cellMembers (hl first List.mem_cons_self)]
    refine .repeated hn fun name hname => ?_
    obtain ⟨members, hm, hname⟩ := List.mem_flatMap.mp hname
    obtain ⟨vs, hvs, rfl⟩ := List.mem_map.mp hm
    rwa [names_cellMembers (hl vs (List.mem_cons_of_mem _ hvs))] at hname

theorem ofDocument_toDocument {name : String} {values : List (List Value)} (hn : fields.Nodup)
    (hl : ∀ vs ∈ values, vs.length = fields.length)
    (hf : ∀ vs ∈ values, ∀ n, .number n ∈ vs → n.isFinite) (he : fields ≠ [] → values ≠ []) :
    ofDocument name (holding name fields values).toDocument = .ok (holding name fields values) := by
  have hfields := fieldsOf_cellMembers hn hl he
  refine ofDocument_eq_ok.mpr ⟨values.map (cellMembers fields), values, ?_, ?_, ?_⟩
  · rw [toDocument, holding, List.map_map, List.map_map]
    exact congrArg _ (List.map_congr_left fun vs hvs => rowDocument_holding _ hn (hl vs hvs))
  · rw [hfields, List.forall₂_map_left_iff]
    exact List.forall₂_same.mpr fun vs hvs => memberValue_cellMembers hn (hl vs hvs) (hf vs hvs)
  · rw [hfields]

/-- A table that was read from a document with finite numbers keeps nothing that writing it would
lose. -/
theorem ofDocument_again {name : String} {document : Document} {table : Table}
    (hf : document.Finite) (h : ofDocument name document = .ok table) :
    ofDocument name table.toDocument = .ok table := by
  obtain ⟨objects, values, rfl, hv, rfl⟩ := ofDocument_eq_ok.mp h
  refine ofDocument_toDocument (firstSeen_eraseDups _).nodup (fun vs hvs => ?_)
    (fun vs hvs n hn => ?_) fun hfields hvalues => ?_
  · obtain ⟨members, -, hm⟩ := exists_mem_of_forall₂ hv.flip hvs
    exact hm.length_eq.symm
  · obtain ⟨members, hmembers, hm⟩ := exists_mem_of_forall₂ hv.flip hvs
    obtain ⟨field, -, hvalue⟩ := exists_mem_of_forall₂ hm.flip hn
    cases hvalue with
    | present hmember hvalue =>
      cases hvalue
      exact hf n (.item (List.mem_map.mpr ⟨members, hmembers, rfl⟩)
        (.member (mem_of_member? hmember) (.number n)))
  · rw [hvalues, List.forall₂_nil_right_iff] at hv
    rw [hv] at hfields
    exact hfields rfl

/-- A table is read back from its document with its fields in order and its columns and offsets, if
its fields are distinct, its numbers are finite and it has a row unless it has no fields. This
includes every table that was read from a document. -/
theorem export_read_back :
    (∀ name fields rows table, ofValues name fields rows = .ok table → fields.Nodup →
      (∀ vs ∈ rows, ∀ n, .number n ∈ vs → n.isFinite) → (fields ≠ [] → rows ≠ []) →
      ofDocument table.name table.toDocument = .ok table) ∧
    ∀ name document table, document.Finite → ofDocument name document = .ok table →
      ofDocument name table.toDocument = .ok table := by
  refine ⟨fun name fields rows table h hn hf he => ?_, fun _ _ _ => ofDocument_again⟩
  obtain ⟨hl, rfl⟩ := ofValues_eq_ok.mp h
  exact ofDocument_toDocument hn hl hf he

theorem two_rows_read_back :
    let rows : List (List Value) := [[.number (.ofNat 1), .null], [.text "x", .boolean true]]
    let table := holding "t" ["b", "a"] rows
    let document : Document := .array [.object [("a", .number (.ofNat 1))],
      .object [("b", .text "x")]]
    ofValues "t" ["b", "a"] rows = .ok table ∧ ofDocument "t" table.toDocument = .ok table ∧
      document.Finite ∧ ∃ other, ofDocument "t" document = .ok other ∧
        ofDocument "t" other.toDocument = .ok other := by
  intro rows table document
  obtain ⟨hread, hagain⟩ := export_read_back
  have hfinite : document.Finite := by
    intro n hn
    change HasNumber (.array _) n at hn
    rcases hn with _ | ⟨hitem, hn⟩
    rcases List.mem_pair.mp hitem with rfl | rfl
    all_goals
      rcases hn with _ | _ | ⟨hm, hn⟩
      cases List.mem_singleton.mp hm
      cases hn
    decide
  have hnumbers : ∀ vs ∈ rows, ∀ n, .number n ∈ vs → n.isFinite := by
    intro vs hvs n hn
    rcases List.mem_pair.mp hvs with rfl | rfl
    · have he : n = .ofNat 1 := by simpa using hn
      exact he ▸ by decide
    · simp at hn
  have hrows : ["b", "a"] ≠ [] → rows ≠ [] := fun _ => List.cons_ne_nil _ _
  exact ⟨rfl, hread "t" ["b", "a"] rows table rfl (by decide) hnumbers hrows, hfinite, _, rfl,
    hagain "t" document _ hfinite rfl⟩

end Table

end TableQuery
