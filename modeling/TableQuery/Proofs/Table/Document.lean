import Mathlib.Data.List.Induction
import TableQuery.Proofs.Table.Group
import TableQuery.Table.Document

/-! # Tables from documents

A document is a table if it is flat: an array of objects whose members are null, booleans, numbers
and texts. Its fields are the member names of all objects in the order in which they first occur,
and each object is a row with null where it has no member. -/

namespace TableQuery

/-! ## Members -/

namespace Document

theorem member?_eq_none_iff {name : String} {members : List (String × Document)} :
    member? name members = none ↔ name ∉ members.map (·.1) := by
  rw [member?, List.lookup_eq_none_iff]
  simp only [bne_iff_ne, List.mem_map, not_exists, not_and]
  exact forall₂_congr fun member _ => ne_comm

theorem mem_of_member? {name : String} {content : Document} {members : List (String × Document)}
    (h : member? name members = some content) : (name, content) ∈ members := by
  obtain ⟨before, after, rfl, -⟩ := List.lookup_eq_some_iff.mp h
  exact List.mem_append_right _ List.mem_cons_self

/-- Of distinct names, none hides another. -/
theorem member?_of_mem {name : String} {content : Document} {members : List (String × Document)}
    (h : (members.map (·.1)).Nodup) (hm : (name, content) ∈ members) :
    member? name members = some content := by
  obtain ⟨before, after, rfl⟩ := List.append_of_mem hm
  rw [List.map_append, List.nodup_append] at h
  refine List.lookup_eq_some_iff.mpr ⟨before, after, rfl, fun member hb => bne_iff_ne.mpr ?_⟩
  exact (h.2.2 _ (List.mem_map.mpr ⟨member, hb, rfl⟩) _ List.mem_cons_self).symm

/-- The document stands for a value. -/
inductive Holds : Document → Value → Prop where
  | null : Holds .null .null
  | boolean (b : Bool) : Holds (.boolean b) (.boolean b)
  | number (n : Number) : Holds (.number n) (.number n)
  | text (s : String) : Holds (.text s) (.text s)

/-- What a row made of these members has in a field. -/
inductive MemberValue (members : List (String × Document)) (field : String) : Value → Prop where
  | present {content : Document} {v : Value} (hm : member? field members = some content)
    (hv : content.Holds v) : MemberValue members field v
  | missing (hm : field ∉ members.map (·.1)) : MemberValue members field .null

/-- An array of objects whose members stand for values. Of members with one name the first
counts. -/
def Flat (document : Document) : Prop :=
  ∃ objects : List (List (String × Document)), document = .array (objects.map .object) ∧
    ∀ members ∈ objects, ∀ name content, member? name members = some content →
      ∃ v, content.Holds v

end Document

open Document

/-! ## Values -/

namespace Value

theorem ofDocument_eq_ok {content : Document} {v : Value} :
    ofDocument content = .ok v ↔ content.Holds v := by
  constructor
  · intro h
    cases content <;> cases h
    · exact .null
    · exact .boolean _
    · exact .number _
    · exact .text _
  · rintro (_ | _ | _ | _) <;> rfl

theorem ofDocument_error {content : Document} {e : QueryError} (h : ofDocument content = .error e) :
    e = .conversion .nestedValue := by
  cases content <;> cases h <;> rfl

end Value

/-! ## First occurrences -/

/-- The fields are the names, each once, in the order in which they first occur. -/
structure FirstSeen (names fields : List String) : Prop where
  nodup : fields.Nodup
  mem : ∀ name, name ∈ fields ↔ name ∈ names
  order : fields.Pairwise fun a b => names.idxOf a < names.idxOf b

namespace FirstSeen

variable {names fields : List String} {name : String}

theorem order_concat (h : FirstSeen names fields) (name : String) :
    fields.Pairwise fun a b => (names ++ [name]).idxOf a < (names ++ [name]).idxOf b :=
  h.order.imp_of_mem fun {a b} ha hb hlt => by
    rwa [List.idxOf_append_of_mem ((h.mem a).mp ha), List.idxOf_append_of_mem ((h.mem b).mp hb)]

theorem concat_of_mem (h : FirstSeen names fields) (hn : name ∈ names) :
    FirstSeen (names ++ [name]) fields where
  nodup := h.nodup
  mem other := by
    rw [h.mem, List.mem_append, List.mem_singleton]
    exact ⟨.inl, fun ho => ho.elim id fun he => he ▸ hn⟩
  order := h.order_concat name

theorem concat_of_notMem (h : FirstSeen names fields) (hn : name ∉ names) :
    FirstSeen (names ++ [name]) (fields ++ [name]) := by
  have hnew : name ∉ fields := fun hf => hn ((h.mem name).mp hf)
  refine ⟨List.nodup_append.mpr ⟨h.nodup, List.nodup_singleton _, ?_⟩, fun other => ?_,
    List.pairwise_append.mpr ⟨h.order_concat name, List.pairwise_singleton _ _, ?_⟩⟩
  · intro a ha b hb hab
    rw [hab, List.mem_singleton.mp hb] at ha
    exact hnew ha
  · rw [List.mem_append, List.mem_append, h.mem]
  · -- the new name stands behind all places where the names before it occur
    intro a ha b hb
    rw [List.mem_singleton.mp hb, List.idxOf_append_of_mem ((h.mem a).mp ha),
      List.idxOf_append_of_notMem hn]
    exact Nat.lt_of_lt_of_le (List.idxOf_lt_length_of_mem ((h.mem a).mp ha))
      (Nat.le_add_right _ _)

end FirstSeen

theorem firstSeen_eraseDups (names : List String) : FirstSeen names names.eraseDups := by
  induction names using List.reverseRecOn with
  | nil => exact ⟨List.nodup_nil, fun _ => Iff.rfl, .nil⟩
  | append_singleton names name ih =>
    rw [eraseDups_concat]
    split
    · next hn =>
      rw [List.append_nil]
      exact ih.concat_of_mem hn
    · next hn => exact ih.concat_of_notMem hn

/-! ## Rows -/

namespace Row

/-- The row of a table with these fields that has these values. -/
def holding (table : String) (fields : List String) (values : List Value) : Row :=
  ⟨[(table, 0)], Column.ofFields table fields, values⟩

theorem ofValues_eq_ok {table : String} {fields : List String} {values : List Value} {row : Row} :
    ofValues table fields values = .ok row ↔
      values.length = fields.length ∧ row = holding table fields values := by
  rw [ofValues, ofColumns, Column.length_ofFields]
  split
  · next hl => simp [hl, eq_comm, holding]
  · next hl => simp [Ne.symm hl]

end Row

namespace Table

theorem rowMembers_eq_ok {name : String} {items : List Document}
    {objects : List (List (String × Document))} :
    rowMembers name items = .ok objects ↔ items = objects.map .object := by
  induction items generalizing objects with
  | nil =>
    constructor
    · intro h
      cases h
      rfl
    · intro h
      rw [List.map_eq_nil_iff.mp h.symm]
      rfl
  | cons item rest ih =>
    constructor
    · intro h
      cases item with
      | object members =>
        obtain ⟨others, ho, h⟩ := exists_ok_of_bind h
        cases h
        rw [List.map_cons, ← ih.mp ho]
      | null | boolean | number | text | array => cases h
    · intro h
      cases objects with
      | nil => cases h
      | cons members others =>
        rw [List.map_cons] at h
        cases h
        rw [rowMembers, ih.mpr rfl]
        rfl

theorem rowMembers_error {name : String} {items : List Document} {e : QueryError}
    (h : rowMembers name items = .error e) : e = .conversion (.notObject name) := by
  induction items with
  | nil => cases h
  | cons item rest ih =>
    cases item with
    | object members =>
      rcases error_of_bind h with h | ⟨others, -, h⟩
      · exact ih h
      · cases h
    | null | boolean | number | text | array =>
      cases h
      rfl

theorem fieldValues_eq_ok {fields : List String} {members : List (String × Document)}
    {values : List Value} :
    fieldValues fields members = .ok values ↔ List.Forall₂ (MemberValue members) fields values := by
  constructor
  · intro h
    refine (forall₂_of_mapM h).imp fun field v hv => ?_
    split at hv
    · next content hm => exact .present hm (Value.ofDocument_eq_ok.mp hv)
    · next hm =>
      cases hv
      exact .missing (member?_eq_none_iff.mp hm)
  · intro h
    refine mapM_of_forall₂ (h.imp fun field v hv => ?_)
    cases hv with
    | present hm hv => rw [hm]; exact Value.ofDocument_eq_ok.mpr hv
    | missing hm => rw [member?_eq_none_iff.mpr hm]

/-- A row fails for a member that stands for no value. -/
theorem fieldValues_error {fields : List String} {members : List (String × Document)}
    {e : QueryError} (h : fieldValues fields members = .error e) :
    e = .conversion .nestedValue ∧ ∃ field content, member? field members = some content ∧
      ¬∃ v, content.Holds v := by
  obtain ⟨field, -, h⟩ := exists_error_of_mapM h
  split at h
  · next content hm =>
    refine ⟨Value.ofDocument_error h, field, content, hm, fun ⟨v, hv⟩ => ?_⟩
    rw [Value.ofDocument_eq_ok.mpr hv] at h
    cases h
  · cases h

theorem length_of_fieldValues {fields : List String} {objects : List (List (String × Document))}
    {values : List (List Value)} (h : objects.mapM (fieldValues fields) = .ok values) :
    ∀ vs ∈ values, vs.length = fields.length := by
  intro vs hvs
  obtain ⟨members, -, hm⟩ := exists_mem_of_mapM h vs hvs
  exact (fieldValues_eq_ok.mp hm).length_eq.symm

/-! ## Tables -/

/-- The table with these fields that has a row for each list of values. -/
def holding (name : String) (fields : List String) (values : List (List Value)) : Table :=
  ⟨name, fields, values.map (Row.holding name fields)⟩

theorem ofValues_eq_ok {name : String} {fields : List String} {values : List (List Value)}
    {table : Table} : ofValues name fields values = .ok table ↔
      (∀ vs ∈ values, vs.length = fields.length) ∧ table = holding name fields values := by
  constructor
  · intro h
    obtain ⟨rows, hrows, h⟩ := exists_ok_of_bind h
    cases h
    obtain ⟨hl, hmade⟩ :=
      (List.forall₂_and_left _ _).mp ((forall₂_of_mapM hrows).imp fun _ _ => Row.ofValues_eq_ok.mp)
    refine ⟨hl, congrArg (Table.mk name fields) ?_⟩
    rw [← List.map_id rows]
    exact (map_eq_map_of_forall₂ (hmade.imp fun _ _ he => he.symm)).symm
  · rintro ⟨hl, rfl⟩
    have hrows : values.mapM (Row.ofValues name fields) = .ok (holding name fields values).rows :=
      mapM_of_forall₂ (List.forall₂_map_right_iff.mpr (List.forall₂_same.mpr fun vs hvs =>
        Row.ofValues_eq_ok.mpr ⟨hl vs hvs, rfl⟩))
    rw [ofValues, hrows]
    rfl

theorem ofDocument_eq_ok {name : String} {document : Document} {table : Table} :
    ofDocument name document = .ok table ↔ ∃ objects values,
      document = .array (objects.map .object) ∧
      List.Forall₂ (fun members vs => List.Forall₂ (MemberValue members) (fieldsOf objects) vs)
        objects values ∧
      table = holding name (fieldsOf objects) values := by
  constructor
  · intro h
    cases document with
    | array items =>
      obtain ⟨objects, ho, h⟩ := exists_ok_of_bind h
      obtain ⟨values, hv, h⟩ := exists_ok_of_bind h
      exact ⟨objects, values, congrArg _ (rowMembers_eq_ok.mp ho),
        (forall₂_of_mapM hv).imp fun _ _ => fieldValues_eq_ok.mp, (ofValues_eq_ok.mp h).2⟩
    | null | boolean | number | text | object => cases h
  · rintro ⟨objects, values, rfl, hv, rfl⟩
    have hvalues : objects.mapM (fieldValues (fieldsOf objects)) = .ok values :=
      mapM_of_forall₂ (hv.imp fun _ _ => fieldValues_eq_ok.mpr)
    show ((rowMembers name (objects.map .object)) >>= _) = _
    rw [rowMembers_eq_ok.mpr rfl]
    show ((objects.mapM (fieldValues (fieldsOf objects))) >>= _) = _
    rw [hvalues]
    exact ofValues_eq_ok.mpr ⟨length_of_fieldValues hvalues, rfl⟩

theorem ofDocument_error {name : String} {document : Document} {e : QueryError}
    (h : ofDocument name document = .error e) :
    ¬document.Flat ∧ ∃ fault, e = .conversion fault := by
  cases document with
  | array items =>
    rcases error_of_bind h with hmembers | ⟨objects, hmembers, hnext⟩
    · refine ⟨?_, _, rowMembers_error hmembers⟩
      rintro ⟨objects, hitems, -⟩
      rw [rowMembers_eq_ok.mpr (Document.array.inj hitems)] at hmembers
      cases hmembers
    rcases error_of_bind hnext with hvalues | ⟨values, hvalues, hrows⟩
    · obtain ⟨members, hm, he⟩ := exists_error_of_mapM hvalues
      obtain ⟨he, field, content, hc, hnone⟩ := fieldValues_error he
      refine ⟨?_, _, he⟩
      rintro ⟨others, hitems, hflat⟩
      rw [rowMembers_eq_ok.mpr (Document.array.inj hitems)] at hmembers
      cases hmembers
      exact hnone (hflat members hm field content hc)
    · rw [ofValues_eq_ok.mpr ⟨length_of_fieldValues hvalues, rfl⟩] at hrows
      cases hrows
  | null | boolean | number | text | object =>
    cases h
    refine ⟨?_, _, rfl⟩
    rintro ⟨_, hd, -⟩
    cases hd

theorem flat_of_ofDocument {name : String} {document : Document} {table : Table}
    (h : ofDocument name document = .ok table) : document.Flat := by
  obtain ⟨objects, values, rfl, hv, -⟩ := ofDocument_eq_ok.mp h
  refine ⟨objects, rfl, fun members hm field content hc => ?_⟩
  have hname : field ∈ members.map (·.1) := List.mem_map.mpr ⟨_, mem_of_member? hc, rfl⟩
  have hfield : field ∈ fieldsOf objects :=
    List.mem_eraseDups.mpr (List.mem_flatMap.mpr ⟨members, hm, hname⟩)
  obtain ⟨vs, -, hvs⟩ := exists_mem_of_forall₂ hv hm
  obtain ⟨v, -, hvalue⟩ := exists_mem_of_forall₂ hvs hfield
  cases hvalue with
  | present hm hv =>
    cases hm.symm.trans hc
    exact ⟨v, hv⟩
  | missing hnot => exact absurd hname hnot

/-- The table is made of the objects: its fields are their member names in the order in which these
first occur, and it has one row for each, with the value of its member in each field, or null where
it has none. -/
structure MadeOfObjects (table : Table) (title : String)
    (objects : List (List (String × Document))) : Prop where
  name : table.name = title
  fields : FirstSeen (objects.flatMap fun members => members.map (·.1)) table.fields
  rows : List.Forall₂ (fun members row => row.offsets = [(title, 0)] ∧
    row.columns = Column.ofFields title table.fields ∧
    List.Forall₂ (MemberValue members) table.fields row.values) objects table.rows

/-- Exactly the flat documents become tables, and others fail with a conversion error. -/
theorem flat_documents_accepted (name : String) (document : Document) :
    ((∃ table, ofDocument name document = .ok table) ↔ document.Flat) ∧
    (¬document.Flat → ∃ fault, ofDocument name document = .error (.conversion fault)) ∧
    ∀ table, ofDocument name document = .ok table → ∃ objects : List (List (String × Document)),
      document = .array (objects.map .object) ∧ table.MadeOfObjects name objects := by
  refine ⟨?_, ?_, ?_⟩
  · refine ⟨fun ⟨_, h⟩ => flat_of_ofDocument h, fun hflat => ?_⟩
    cases h : ofDocument name document with
    | ok table => exact ⟨table, rfl⟩
    | error e => exact absurd hflat (ofDocument_error h).1
  · intro hflat
    cases h : ofDocument name document with
    | ok table => exact absurd (flat_of_ofDocument h) hflat
    | error e =>
      obtain ⟨fault, rfl⟩ := (ofDocument_error h).2
      exact ⟨fault, rfl⟩
  · intro table h
    obtain ⟨objects, values, rfl, hv, rfl⟩ := ofDocument_eq_ok.mp h
    refine ⟨objects, rfl, rfl, firstSeen_eraseDups _, ?_⟩
    exact List.forall₂_map_right_iff.mpr (hv.imp fun _ _ hvs => ⟨rfl, rfl, hvs⟩)

/-- Members that only some objects have are null in the others, and a nested one in the last object
is not passed over. -/
theorem ragged_objects_accepted :
    let document : Document := .array [.object [("a", .boolean true)],
      .object [("b", .text "x"), ("a", .null)]]
    let table := holding "t" ["a", "b"] [[.boolean true, .null], [.null, .text "x"]]
    let nested : Document := .array [.object [("a", .null)], .object [("b", .array [])]]
    document.Flat ∧ ofDocument "t" document = .ok table ∧
      (∃ objects : List (List (String × Document)),
        document = .array (objects.map .object) ∧ table.MadeOfObjects "t" objects) ∧
      ¬nested.Flat ∧ ∃ fault, ofDocument "t" nested = .error (.conversion fault) := by
  intro document table nested
  obtain ⟨haccepted, -, hmade⟩ := flat_documents_accepted "t" document
  obtain ⟨hflat, hrejected, -⟩ := flat_documents_accepted "t" nested
  have htable : ofDocument "t" document = .ok table := rfl
  have hnested : ¬nested.Flat := by
    rw [← hflat]
    rintro ⟨other, h⟩
    cases h
  exact ⟨haccepted.mp ⟨table, htable⟩, htable, hmade table htable, hnested, hrejected hnested⟩

end Table

end TableQuery
