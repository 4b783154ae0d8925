import XrpLedger.Proofs.BuiltTrees

/-!
# Members of JSON objects

The members of a JSON object stand in the order of their names. Those of a field tree are
named for its fields, so they are its fields in another order.

- `Json.get?_insertMember`: members that are looked up.
- `FieldId.ofName_label`: a known field is found by its label.
- `Object.exists_toJson_eq`: the JSON form of an object has a member for each of its
  fields.
- `Object.ofJson_of_fields`: the object is read from its JSON form if its fields are from
  theirs.
-/

namespace XrpLedger

/-! ## Lookups -/

namespace Json

/-- The first member is looked up by `get?` before the others. -/
theorem get?_cons (name : String) (value : Json) (members : List (String × Json))
    (other : String) : get? (.object ((name, value) :: members)) other =
      if name = other then some value else get? (.object members) other := by
  rw [get?, List.find?_cons]
  by_cases h : name = other
  · rw [if_pos h, beq_iff_eq.mpr h]
    rfl
  · rw [if_neg h, beq_eq_false_iff_ne.mpr h]
    rfl

/-- After `insertMember`, `get?` finds the new member under its name, and the others under
theirs. -/
theorem get?_insertMember (name : String) (value : Json) (members : List (String × Json))
    (other : String) : get? (.object (insertMember name value members)) other =
      if name = other then some value else get? (.object members) other := by
  induction members with
  | nil => exact get?_cons name value [] other
  | cons member rest ih =>
    obtain ⟨n, v⟩ := member
    rw [insertMember]
    by_cases hlt : name < n
    · rw [if_pos hlt, get?_cons]
    · rw [if_neg hlt]
      by_cases heq : name = n
      · subst heq
        rw [if_pos rfl, get?_cons, get?_cons]
        by_cases h : name = other
        · rw [if_pos h, if_pos h]
        · rw [if_neg h, if_neg h, if_neg h]
      · -- the names differ, so that looked up is one of them at most
        rw [if_neg heq, get?_cons, ih, get?_cons]
        by_cases h : n = other
        · rw [if_pos h, if_pos h, if_neg fun h' => heq (h'.trans h.symm)]
        · rw [if_neg h, if_neg h]

end Json

/-! ## Names of fields -/

/-- A known field is found by `ofName` from its `label`. -/
theorem FieldId.ofName_label {id : FieldId} (h : id.IsKnown) :
    ofName id.label = .ok id := by
  have hrow : ∀ info ∈ FieldInfo.table, ofName info.name = .ok info.id := by
    decide +kernel
  obtain ⟨info, hinfo⟩ := Option.isSome_iff_exists.mp h
  have hid : info.id = id := by simpa using List.find?_some hinfo
  have hlabel : id.label = info.name := by rw [label, name?, hinfo]; rfl
  rw [hlabel, hrow info (List.mem_of_find?_eq_some hinfo), hid]

/-- Known fields with the same `label` are the same. -/
theorem FieldId.label_inj {id id' : FieldId} (h : id.IsKnown) (h' : id'.IsKnown)
    (hlabel : id.label = id'.label) : id = id' := by
  have hname := ofName_label h
  rw [hlabel, ofName_label h'] at hname
  exact (Except.ok.inj hname).symm

/-! ## Members of a tree -/

namespace Object

variable {o : Object}

/-- A field whose name is new becomes one more member by `insertMember`. -/
theorem exists_insertMember (id : FieldId) (v : Value)
    (h : ∀ field ∈ o, field.1.label ≠ id.label) :
    ∃ o' : Object, o'.Perm ((id, v) :: o) ∧
      Json.insertMember id.label (v.toJson id) (members o) = members o' := by
  induction o with
  | nil => exact ⟨[(id, v)], .refl _, rfl⟩
  | cons field rest ih =>
    obtain ⟨i, w⟩ := field
    have hne : id.label ≠ i.label := (h (i, w) List.mem_cons_self).symm
    rw [members, Json.insertMember]
    -- the new member stands in front of the first greater name
    by_cases hlt : id.label < i.label
    · exact ⟨(id, v) :: (i, w) :: rest, .refl _, by rw [if_pos hlt, members, members]⟩
    · obtain ⟨o', hperm, hmembers⟩ := ih fun f hf => h f (List.mem_cons_of_mem _ hf)
      refine ⟨(i, w) :: o', (hperm.cons _).trans (.swap ..), ?_⟩
      rw [if_neg hlt, if_neg hne, hmembers, members]

/-- Fields with distinct names become `members`, in the order of the names. -/
theorem exists_foldl_insertMember (front o : Object)
    (h : ((front ++ o).map fun field => field.1.label).Nodup) :
    ∃ o' : Object, o'.Perm (front ++ o) ∧
      (members o).foldl (fun ms m => Json.insertMember m.1 m.2 ms) (members front) =
        members o' := by
  -- the fields in front are those whose members are set
  induction o generalizing front with
  | nil => exact ⟨front, by rw [List.append_nil], rfl⟩
  | cons field rest ih =>
    obtain ⟨id, v⟩ := field
    have hperm : (front ++ (id, v) :: rest).Perm ((id, v) :: front ++ rest) :=
      List.perm_middle
    have hnodup := (hperm.map fun field => field.1.label).nodup_iff.mp h
    have hnew : ∀ f ∈ front, f.1.label ≠ id.label := by
      intro f hf heq
      rw [List.cons_append, List.map_cons, List.nodup_cons] at hnodup
      refine hnodup.1 (List.mem_map.mpr ⟨f, List.mem_append_left _ hf, heq⟩)
    obtain ⟨front', hfront, hmembers⟩ := exists_insertMember id v hnew
    have hnodup' : ((front' ++ rest).map fun field => field.1.label).Nodup :=
      ((hfront.append_right rest).map _).nodup_iff.mpr hnodup
    obtain ⟨o', ho', hfold⟩ := ih front' hnodup'
    refine ⟨o', ho'.trans ((hfront.append_right rest).trans hperm.symm), ?_⟩
    rw [members, List.foldl_cons, hmembers, hfold]

/-- Fields `InOrder` have distinct names. -/
theorem nodup_labels {previous : Option FieldId} (horder : InOrder previous o)
    (hnamed : IsNamed o) : (o.map fun field => field.1.label).Nodup := by
  have hlabels : ∀ i ∈ o.map Prod.fst, ∀ j ∈ o.map Prod.fst, i.label = j.label →
      i = j := by
    intro i hi j hj hlabel
    obtain ⟨f, hf, rfl⟩ := List.mem_map.mp hi
    obtain ⟨g, hg, rfl⟩ := List.mem_map.mp hj
    exact FieldId.label_inj (each_iff.mp hnamed f hf).1.1
      (each_iff.mp hnamed g hg).1.1 hlabel
  have hdistinct := horder.ascending.nodup.map_on hlabels
  rwa [List.map_map] at hdistinct

/-- The JSON form `toJson` of an object has a member for each of its fields. -/
theorem exists_toJson_eq (horder : InOrder none o) (hnamed : IsNamed o) :
    ∃ fields : Object, fields.Perm o ∧ toJson o = .object (members fields) := by
  obtain ⟨fields, hperm, hmembers⟩ :=
    exists_foldl_insertMember [] o (nodup_labels horder hnamed)
  exact ⟨fields, hperm, congrArg Json.object hmembers⟩

/-- The fields of `members` are set one by one by `ofMembers`. -/
theorem ofMembers_members {fields : Object} (hnamed : IsNamed fields)
    (hfields : ∀ f ∈ fields, Value.ofJson f.1 (f.2.toJson f.1) = .ok f.2) (o : Object) :
    ofMembers o (members fields) = .ok (insertAll fields o) := by
  induction fields generalizing o with
  | nil => rfl
  | cons field rest ih =>
    obtain ⟨id, v⟩ := field
    obtain ⟨⟨hid, hfits⟩, -, hrest⟩ := hnamed
    have hv : Value.ofJson id (v.toJson id) = .ok v := hfields (id, v) List.mem_cons_self
    have hput : put o id v = .ok (get? o id, insert id v o) :=
      put_eq_ok.mpr ⟨hfits, rfl, rfl⟩
    rw [members, ofMembers, FieldId.ofName_label hid]
    simp only
    rw [hv]
    simp only
    rw [hput]
    exact ih hrest (fun f hf => hfields f (List.mem_cons_of_mem _ hf)) _

/-- An object is read by `ofJson` from its JSON form `toJson` if the values of its fields
are read from theirs. -/
theorem ofJson_of_fields (horder : InOrder none o) (hnamed : IsNamed o)
    (hfields : ∀ f ∈ o, Value.ofJson f.1 (f.2.toJson f.1) = .ok f.2) :
    ofJson (toJson o) = .ok o := by
  obtain ⟨fields, hperm, hjson⟩ := exists_toJson_eq horder hnamed
  have hnamed' : IsNamed fields :=
    each_iff.mpr fun f hf => each_iff.mp hnamed f (hperm.mem_iff.mp hf)
  -- the fields come in the order of their names, and setting them restores their own
  rw [hjson, ofJson, ofMembers_members hnamed' fun f hf =>
    hfields f (hperm.mem_iff.mp hf)]
  exact congrArg Except.ok (horder.ascending.insertAll_perm hperm)

end Object

end XrpLedger
