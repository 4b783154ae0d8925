import XrpLedger.Proofs.ObjectMap

/-!
# Objects made of entries

The field tree of a record has one field for each member of the record, or none where the
member is optional and absent. So the record gives a list of entries, and its tree is what
these set one after the other. If no field occurs twice in the list, the tree can be
looked up in it.

- `Object.insertEntry`: sets the field of an entry, if it has a value.
- `Object.MadeOf`: an object that is set from a list of entries with distinct fields.
- `Object.MadeOf.get?_eq`, `Object.MadeOf.get?_eq_some`: `get?` of the object is look-up
  in the list.
- `Object.MadeOf.canonical`, `Object.MadeOf.forall_mem_iff`: what holds of the entries
  holds of the object.
-/

namespace XrpLedger.Object

/-- The object with a field set by `insert`, if the entry has a value for it. -/
def insertEntry (o : Object) (entry : FieldId × Option Value) : Object :=
  match entry.2 with
  | some v => insert entry.1 v o
  | none => o

/-- The field of an optional member, set by `insertSome`, is an entry. -/
theorem insertSome_eq {α : Type} (id : FieldId) (make : α → Scalar)
    (a : Option α) (o : Object) :
    insertSome id make a o = insertEntry o (id, a.map fun a => .scalar (make a)) := by
  cases a <;> rfl

/-- After `insertEntry`, `get?` finds the value of the entry in its field, if it has one,
and what was there before in all others. -/
theorem get?_insertEntry (o : Object) (entry : FieldId × Option Value) (j : FieldId) :
    get? (insertEntry o entry) j = if entry.1 = j then entry.2.or (get? o j)
      else get? o j := by
  obtain ⟨id, v⟩ := entry
  cases v with
  | none => simp [insertEntry]
  | some v => simp [insertEntry, get?_insert]

theorem ascending_insertEntry {o : Object} (ho : Ascending o)
    (entry : FieldId × Option Value) :
    Ascending (insertEntry o entry) := by
  obtain ⟨id, v⟩ := entry
  cases v with
  | none => exact ho
  | some v => exact ascending_insert ho id v

theorem Canonical.insertEntry {o : Object} (ho : Canonical o)
    {entry : FieldId × Option Value}
    (hid : ¬ entry.1.IsEndMarker) (hv : ∀ v ∈ entry.2, v.Canonical) :
    Canonical (insertEntry o entry) := by
  obtain ⟨id, v⟩ := entry
  cases v with
  | none => exact ho
  | some v => exact ho.insert hid (hv v rfl)

variable {entries : List (FieldId × Option Value)}

/-- A field of which there is no entry is left as it was. -/
theorem get?_foldl_of_not_mem {j : FieldId} (hj : j ∉ entries.map Prod.fst) (o : Object) :
    get? (entries.foldl insertEntry o) j = get? o j := by
  induction entries generalizing o with
  | nil => rfl
  | cons entry rest ih =>
    rw [List.map_cons, List.mem_cons, not_or] at hj
    rw [List.foldl_cons, ih hj.2, get?_insertEntry, if_neg fun h => hj.1 h.symm]

/-- If every field is set once by `insertEntry`, `get?` finds in each the value of its
entry. -/
theorem get?_foldl (hnodup : (entries.map Prod.fst).Nodup) :
    ∀ {o : Object}, (∀ entry ∈ entries, get? o entry.1 = none) →
      ∀ entry ∈ entries, get? (entries.foldl insertEntry o) entry.1 = entry.2 := by
  induction entries with
  | nil => simp
  | cons first rest ih =>
    rw [List.map_cons, List.nodup_cons] at hnodup
    intro o habsent
    rw [List.forall_mem_cons] at habsent ⊢
    rw [List.foldl_cons]
    constructor
    -- the later entries are of other fields, so they leave the first one as it was set
    · rw [get?_foldl_of_not_mem hnodup.1, get?_insertEntry, if_pos rfl, habsent.1,
        Option.or_none]
    · refine ih hnodup.2 fun entry hentry => ?_
      have hne : first.1 ≠ entry.1 :=
        fun h => hnodup.1 (List.mem_map.mpr ⟨entry, hentry, h.symm⟩)
      rw [get?_insertEntry, if_neg hne, habsent.2 entry hentry]

/-! ## Objects of distinct entries -/

/-- An object is set by entries with `insertEntry`, and no two of these are of the same
field. -/
structure MadeOf (entries : List (FieldId × Option Value)) (o : Object) : Prop where
  eq_foldl : o = entries.foldl insertEntry []
  nodup : (entries.map Prod.fst).Nodup

namespace MadeOf

variable {o : Object}

/-- Every field of the object holds the value of its entry. -/
theorem get?_eq (h : MadeOf entries o) : ∀ entry ∈ entries, get? o entry.1 = entry.2 := by
  rw [h.eq_foldl]
  exact get?_foldl h.nodup fun _ _ => rfl

/-- The object has no fields but those of the entries. -/
theorem get?_eq_none (h : MadeOf entries o) {id : FieldId}
    (hid : id ∉ entries.map Prod.fst) :
    get? o id = none := by
  rw [h.eq_foldl, get?_foldl_of_not_mem hid]
  rfl

/-- What `get?` finds in the object is an entry with a value, and all of these
are found. -/
theorem get?_eq_some (h : MadeOf entries o) {id : FieldId} {v : Value} :
    get? o id = some v ↔ (id, some v) ∈ entries := by
  constructor
  · intro hv
    by_cases hid : id ∈ entries.map Prod.fst
    · obtain ⟨entry, hentry, rfl⟩ := List.mem_map.mp hid
      rw [h.get?_eq entry hentry] at hv
      rwa [← hv]
    · rw [h.get?_eq_none hid] at hv
      cases hv
  · exact fun hentry => h.get?_eq (id, some v) hentry

theorem ascending (h : MadeOf entries o) : Ascending o := by
  rw [h.eq_foldl]
  exact List.foldlRecOn entries insertEntry ascending_nil fun _ ho entry _ =>
    ascending_insertEntry ho entry

/-- An object is `Canonical` if its entries have values that are, and none is of an end
marker. -/
theorem canonical (h : MadeOf entries o)
    (hfields : ∀ id ∈ entries.map Prod.fst, ¬ id.IsEndMarker)
    (hvalues : ∀ entry ∈ entries, ∀ v ∈ entry.2, v.Canonical) : Canonical o := by
  rw [h.eq_foldl]
  exact List.foldlRecOn entries insertEntry canonical_nil fun _ ho entry hentry =>
    ho.insertEntry (hfields _ (List.mem_map_of_mem hentry)) (hvalues entry hentry)

/-- The fields of the object are the entries with a value. -/
theorem forall_mem_iff (h : MadeOf entries o) {P : FieldId → Value → Prop} :
    (∀ field ∈ o, P field.1 field.2) ↔ ∀ entry ∈ entries, ∀ v ∈ entry.2, P entry.1 v := by
  have hmem : ∀ id v, (id, v) ∈ o ↔ (id, some v) ∈ entries := by
    intro id v
    rw [h.ascending.mem_iff, h.get?_eq_some]
  constructor
  · rintro hall ⟨id, _⟩ hentry v rfl
    exact hall (id, v) ((hmem id v).mpr hentry)
  · intro hall field hfield
    exact hall (field.1, some field.2) ((hmem field.1 field.2).mp hfield) _ rfl

end MadeOf

end XrpLedger.Object
