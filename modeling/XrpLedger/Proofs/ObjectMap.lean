import XrpLedger.Proofs.RoundTrip

/-!
# Objects as finite maps

Fields can be set and removed without leaving the trees that are read back as themselves,
and a lookup sees nothing of what happens to other fields.

- `Object.get?_insert`, `Object.Ascending.get?_erase`: lookups after a change.
- `Object.ascending_insert`, `Object.ascending_erase`: the order of the fields.
- `Object.Ascending.ext`: an ascending object is determined by its lookups, from which the
  laws of setting and removing follow.
- `Object.Ascending.insertAll_perm`: an object is what its fields make, set in any order.
- `Object.inOrder_iff`, `Object.inOrder_insert`, `Object.inOrder_filter`: order at every
  level.
- `Object.Canonical.insert`, `Object.Canonical.filter`: changes of a tree that can be
  read.
-/

namespace XrpLedger

namespace FieldId

theorem Follows.trans {previous : Option FieldId} {p id : FieldId}
    (h : p.Follows previous) (hp : p < id) :
    id.Follows previous :=
  fun q hq => Nat.lt_trans (h q hq) hp

theorem lt_irrefl (id : FieldId) : ¬ id < id :=
  Nat.lt_irrefl id.rank

theorem lt_asymm {a b : FieldId} (h : a < b) : ¬ b < a :=
  Nat.lt_asymm h

theorem lt_of_not_lt {a b : FieldId} (hlt : ¬ a < b) (hne : a ≠ b) : b < a := by
  rcases Nat.lt_trichotomy a.rank b.rank with h | h | h
  · exact absurd h hlt
  · exact absurd (rank_inj h) hne
  · exact h

end FieldId

namespace Object

variable {o : Object} {id j : FieldId} {v : Value}

/-! ## Places -/

section

variable {i : FieldId} {w : Value} {rest : Object}

theorem insert_cons_of_lt (h : id < i) :
    insert id v ((i, w) :: rest) = (id, v) :: (i, w) :: rest := by
  rw [insert, if_pos h]

theorem insert_cons_self : insert id v ((id, w) :: rest) = (id, v) :: rest := by
  rw [insert, if_neg id.lt_irrefl, if_pos rfl]

theorem insert_cons_of_gt (h : i < id) :
    insert id v ((i, w) :: rest) = (i, w) :: insert id v rest := by
  have hne : id ≠ i := by
    rintro rfl
    exact id.lt_irrefl h
  rw [insert, if_neg (FieldId.lt_asymm h), if_neg hne]

end

/-! ## Lookups -/

/-- After `insert`, `get?` finds the new value in its field, and what was there before in
all others. -/
theorem get?_insert (id j : FieldId) (v : Value) (o : Object) :
    get? (insert id v o) j = if id = j then some v else get? o j := by
  induction o with
  | nil => rfl
  | cons field rest ih =>
    obtain ⟨i, w⟩ := field
    rw [insert]
    split
    · rfl
    · split
      · next hi =>
        subst hi
        rw [get?, get?]
        split <;> rfl
      · next hi =>
        rw [get?, ih, get?]
        by_cases hij : i = j
        · rw [if_pos hij, if_pos hij, if_neg fun h => hi (h.trans hij.symm)]
        · rw [if_neg hij, if_neg hij]

theorem get?_insertSome {α : Type} (id j : FieldId) (make : α → Scalar) (a : Option α)
    (o : Object) :
    get? (insertSome id make a o) j =
      if id = j then (a.map fun a => .scalar (make a)).or (get? o j) else get? o j := by
  cases a with
  | none => simp [insertSome]
  | some a => simp [insertSome, get?_insert]

/-- A field that `get?` does not find need not be removed by `erase`. -/
theorem erase_of_get?_eq_none (h : get? o id = none) : erase id o = o := by
  induction o with
  | nil => rfl
  | cons field rest ih =>
    obtain ⟨i, w⟩ := field
    rw [get?] at h
    split at h
    · cases h
    · next hi => rw [erase, if_neg hi, ih h]

theorem mem_of_get? (h : get? o id = some v) : (id, v) ∈ o := by
  induction o with
  | nil => cases h
  | cons field rest ih =>
    obtain ⟨i, w⟩ := field
    rw [get?] at h
    split at h
    · next hi =>
      subst hi
      cases h
      exact List.mem_cons_self
    · exact List.mem_cons_of_mem _ (ih h)

/-- A field after `insert` is the new one or one from before. -/
theorem mem_insert {field : FieldId × Value} (h : field ∈ insert id v o) :
    field = (id, v) ∨ field ∈ o := by
  induction o with
  | nil => exact .inl (List.mem_singleton.mp h)
  | cons first rest ih =>
    obtain ⟨i, w⟩ := first
    rw [insert] at h
    split at h
    · exact List.mem_cons.mp h
    · split at h
      · exact (List.mem_cons.mp h).imp_right (List.mem_cons_of_mem _)
      · rcases List.mem_cons.mp h with rfl | h
        · exact .inr List.mem_cons_self
        · exact (ih h).imp_right (List.mem_cons_of_mem _)

theorem erase_sublist (id : FieldId) (o : Object) : (erase id o).Sublist o := by
  induction o with
  | nil => exact List.Sublist.slnil
  | cons field rest ih =>
    rw [erase]
    split
    · exact List.sublist_cons_self _ _
    · exact ih.cons_cons _

/-! ## Ascending fields -/

theorem ascending_nil : Ascending [] := List.Pairwise.nil

theorem ascending_cons {i : FieldId} {w : Value} {rest : Object} :
    Ascending ((i, w) :: rest) ↔ (∀ field ∈ rest, i < field.1) ∧ Ascending rest := by
  rw [Ascending, List.map_cons, List.pairwise_cons, List.forall_mem_map]
  exact Iff.rfl

/-- A field is set by `insert` at its place, so the object stays `Ascending`. -/
theorem ascending_insert (ho : Ascending o) (id : FieldId) (v : Value) :
    Ascending (insert id v o) := by
  induction o with
  | nil => exact ascending_cons.mpr ⟨by simp, ascending_nil⟩
  | cons first rest ih =>
    obtain ⟨i, w⟩ := first
    obtain ⟨hless, hrest⟩ := ascending_cons.mp ho
    by_cases hlt : id < i
    · rw [insert_cons_of_lt hlt]
      refine ascending_cons.mpr ⟨?_, ho⟩
      intro field hfield
      rcases List.mem_cons.mp hfield with rfl | hfield
      · exact hlt
      · exact Nat.lt_trans hlt (hless field hfield)
    · by_cases hi : id = i
      · subst hi
        rw [insert_cons_self]
        exact ascending_cons.mpr ⟨hless, hrest⟩
      · have hgt : i < id := FieldId.lt_of_not_lt hlt hi
        rw [insert_cons_of_gt hgt]
        refine ascending_cons.mpr ⟨?_, ih hrest⟩
        intro field hfield
        rcases mem_insert hfield with rfl | hfield
        · exact hgt
        · exact hless field hfield

theorem Ascending.sublist {o' : Object} (ho : Ascending o) (h : o'.Sublist o) :
    Ascending o' :=
  List.Pairwise.sublist (h.map Prod.fst) ho

theorem ascending_erase (ho : Ascending o) (id : FieldId) : Ascending (erase id o) :=
  ho.sublist (erase_sublist id o)

theorem Ascending.nodup (ho : Ascending o) : (o.map Prod.fst).Nodup := by
  refine ho.imp ?_
  rintro id _ hlt rfl
  exact id.lt_irrefl hlt

/-- In an `Ascending` object each field stands once, where `get?` finds it. -/
theorem Ascending.mem_iff (ho : Ascending o) : (id, v) ∈ o ↔ get? o id = some v := by
  refine ⟨fun h => ?_, mem_of_get?⟩
  induction o with
  | nil => cases h
  | cons first rest ih =>
    obtain ⟨i, w⟩ := first
    obtain ⟨hless, hrest⟩ := ascending_cons.mp ho
    rcases List.mem_cons.mp h with heq | h
    · cases heq
      rw [get?, if_pos rfl]
    · have hne : i ≠ id := by
        rintro rfl
        exact i.lt_irrefl (hless (i, v) h)
      rw [get?, if_neg hne, ih hrest h]

/-- From an `Ascending` object, `erase` removes the field and leaves all others. -/
theorem Ascending.get?_erase (ho : Ascending o) (id j : FieldId) :
    get? (erase id o) j = if id = j then none else get? o j := by
  induction o with
  | nil =>
    show none = if id = j then none else none
    rw [ite_self]
  | cons first rest ih =>
    obtain ⟨i, w⟩ := first
    obtain ⟨hless, hrest⟩ := ascending_cons.mp ho
    by_cases hi : i = id
    · subst hi
      rw [erase, if_pos rfl, get?]
      by_cases hj : i = j
      · -- the field is not there a second time
        subst hj
        rw [if_pos rfl]
        cases hget : get? rest i with
        | none => rfl
        | some w => exact absurd (hless _ (mem_of_get? hget)) i.lt_irrefl
      · rw [if_neg hj, if_neg hj]
    · rw [erase, if_neg hi, get?, get?, ih hrest]
      by_cases hij : i = j
      · rw [if_pos hij, if_pos hij, if_neg fun h => hi (hij.trans h.symm)]
      · rw [if_neg hij, if_neg hij]

/-- Two `Ascending` objects are equal if they have the same fields. -/
theorem Ascending.ext_mem {o' : Object} (ho : Ascending o) (ho' : Ascending o')
    (h : ∀ id v, (id, v) ∈ o ↔ (id, v) ∈ o') : o = o' := by
  have hperm : o.Perm o' :=
    (List.perm_ext_iff_of_nodup ho.nodup.of_map ho'.nodup.of_map).mpr fun field =>
      h field.1 field.2
  refine hperm.eq_of_pairwise (fun f g _ _ hlt hgt => ?_) (List.pairwise_map.mp ho)
    (List.pairwise_map.mp ho')
  exact absurd hgt (FieldId.lt_asymm hlt)

/-- Two `Ascending` objects are equal if `get?` finds the same in all fields. -/
theorem Ascending.ext {o' : Object} (ho : Ascending o) (ho' : Ascending o')
    (h : ∀ id, get? o id = get? o' id) : o = o' := by
  refine ho.ext_mem ho' fun id v => ?_
  rw [ho.mem_iff, ho'.mem_iff, h]

/-- Setting a field with `insert` to the value that it has changes nothing. -/
theorem Ascending.insert_of_get? (ho : Ascending o) (hget : get? o id = some v) :
    insert id v o = o := by
  refine (ascending_insert ho id v).ext ho fun j => ?_
  rw [get?_insert]
  by_cases hj : id = j
  · rw [if_pos hj, ← hj, hget]
  · rw [if_neg hj]

/-- A field that is set need not be removed by `erase` before. -/
theorem Ascending.insert_erase (ho : Ascending o) (id : FieldId) (v : Value) :
    insert id v (erase id o) = insert id v o := by
  refine (ascending_insert (ascending_erase ho id) id v).ext
    (ascending_insert ho id v) fun j => ?_
  rw [get?_insert, get?_insert, ho.get?_erase]
  by_cases hj : id = j
  · rw [if_pos hj, if_pos hj]
  · rw [if_neg hj, if_neg hj, if_neg hj]

/-- A field that is removed need not be set by `insert` before. -/
theorem Ascending.erase_insert (ho : Ascending o) (id : FieldId) (v : Value) :
    erase id (insert id v o) = erase id o := by
  have hinsert := ascending_insert ho id v
  refine (ascending_erase hinsert id).ext (ascending_erase ho id) fun j => ?_
  rw [hinsert.get?_erase, ho.get?_erase, get?_insert]
  by_cases hj : id = j
  · rw [if_pos hj, if_pos hj]
  · rw [if_neg hj, if_neg hj, if_neg hj]

/-- One field may be removed before or after another is set. -/
theorem Ascending.erase_insert_of_ne (ho : Ascending o) (hne : id ≠ j) (v : Value) :
    erase id (insert j v o) = insert j v (erase id o) := by
  have hinsert := ascending_insert ho j v
  have herase := ascending_erase ho id
  refine (ascending_erase hinsert id).ext (ascending_insert herase j v) fun i => ?_
  rw [hinsert.get?_erase, get?_insert, get?_insert, ho.get?_erase]
  by_cases hi : id = i
  · have hji : j ≠ i := fun h => hne (hi.trans h.symm)
    rw [if_pos hi, if_neg hji, if_pos hi]
  · rw [if_neg hi, if_neg hi]

/-- A field need not be removed twice. -/
theorem Ascending.erase_erase (ho : Ascending o) (id : FieldId) :
    erase id (erase id o) = erase id o := by
  refine erase_of_get?_eq_none ?_
  rw [ho.get?_erase, if_pos rfl]

/-- From an `Ascending` object, `erase` removes a field wherever it stands. -/
theorem Ascending.erase_eq_filter (ho : Ascending o) (id : FieldId) :
    erase id o = o.filter fun field => field.1 != id := by
  have herase := ascending_erase ho id
  refine herase.ext_mem (ho.sublist List.filter_sublist) fun j w => ?_
  rw [herase.mem_iff, ho.get?_erase, List.mem_filter, ho.mem_iff, bne_iff_ne]
  by_cases hj : id = j
  · rw [if_pos hj]
    exact iff_of_false (by simp) fun h => h.2 hj.symm
  · rw [if_neg hj, and_iff_left (Ne.symm hj)]

/-! ## Setting many fields -/

/-- The object with all fields of a list set, from the first to the last. -/
def insertAll (fields : List (FieldId × Value)) (o : Object) : Object :=
  fields.foldl (fun o field => insert field.1 field.2 o) o

theorem insertAll_concat (fields : List (FieldId × Value)) (id : FieldId)
    (v : Value) (o : Object) :
    insertAll (fields ++ [(id, v)]) o = insert id v (insertAll fields o) :=
  List.foldl_concat ..

/-- Many fields set by `insertAll` are as good as one: the object stays `Ascending`. -/
theorem ascending_insertAll (ho : Ascending o) (fields : List (FieldId × Value)) :
    Ascending (insertAll fields o) := by
  induction fields using List.reverseRecOn with
  | nil => exact ho
  | append_singleton fields field ih =>
    rw [insertAll_concat]
    exact ascending_insert ih _ _

/-- Distinct fields are all there once `insertAll` set them, and no others. -/
theorem mem_insertAll {fields : List (FieldId × Value)}
    (hdistinct : (fields.map Prod.fst).Nodup) :
    (id, v) ∈ insertAll fields [] ↔ (id, v) ∈ fields := by
  induction fields using List.reverseRecOn with
  | nil => exact Iff.rfl
  | append_singleton fields field ih =>
    obtain ⟨i, w⟩ := field
    rw [List.map_append, List.nodup_append] at hdistinct
    obtain ⟨hfront, -, hnew⟩ := hdistinct
    have hascending := ascending_insertAll ascending_nil fields
    rw [insertAll_concat, (ascending_insert hascending i w).mem_iff, get?_insert,
      List.mem_append, List.mem_singleton]
    by_cases hi : i = id
    · -- no field before has this identity
      subst hi
      have hold : (i, v) ∉ fields :=
        fun h => hnew i (List.mem_map_of_mem h) i (by simp) rfl
      rw [if_pos rfl]
      simp [hold, eq_comm]
    · rw [if_neg hi, ← hascending.mem_iff, ih hfront]
      simp [Ne.symm hi]

/-- An `Ascending` object is what `insertAll` makes of its fields, in whatever order they
are set. -/
theorem Ascending.insertAll_perm (ho : Ascending o) {fields : List (FieldId × Value)}
    (hperm : fields.Perm o) : insertAll fields [] = o := by
  have hdistinct : (fields.map Prod.fst).Nodup :=
    (hperm.map Prod.fst).nodup_iff.mpr ho.nodup
  refine (ascending_insertAll ascending_nil fields).ext_mem ho fun id v => ?_
  rw [mem_insertAll hdistinct, hperm.mem_iff]

/-! ## Order at every level -/

/-- The fields of an object that is `InOrder` are ascending, and their values are in
order. -/
theorem inOrder_iff {previous : Option FieldId} : InOrder previous o ↔
    (∀ field ∈ o, field.1.Follows previous) ∧ Ascending o ∧
    ∀ field ∈ o, field.2.InOrder := by
  induction o generalizing previous with
  | nil => exact iff_of_true trivial ⟨by simp, ascending_nil, by simp⟩
  | cons field rest ih =>
    obtain ⟨i, w⟩ := field
    rw [InOrder, ih, ascending_cons, List.forall_mem_cons, List.forall_mem_cons]
    constructor
    · rintro ⟨hi, hw, hbehind, hrest, hinner⟩
      have hless : ∀ field ∈ rest, i < field.1 := fun field hfield =>
        FieldId.follows_some.mp (hbehind field hfield)
      exact ⟨⟨hi, fun field hfield => hi.trans (hless field hfield)⟩,
        ⟨hless, hrest⟩, hw, hinner⟩
    · rintro ⟨⟨hi, -⟩, ⟨hless, hrest⟩, hw, hinner⟩
      have hbehind : ∀ field ∈ rest, field.1.Follows (some i) := fun field hfield =>
        FieldId.follows_some.mpr (hless field hfield)
      exact ⟨hi, hw, hbehind, hrest, hinner⟩

theorem InOrder.ascending {previous : Option FieldId} (h : InOrder previous o) :
    Ascending o :=
  (inOrder_iff.mp h).2.1

/-- A value in order is set by `insert` without disturbing the order at any level. -/
theorem inOrder_insert {previous : Option FieldId} (h : InOrder previous o)
    (hid : id.Follows previous)
    (hv : v.InOrder) : InOrder previous (insert id v o) := by
  obtain ⟨hbehind, hascending, hinner⟩ := inOrder_iff.mp h
  refine inOrder_iff.mpr ⟨?_, ascending_insert hascending id v, ?_⟩
  · intro field hfield
    rcases mem_insert hfield with rfl | hfield
    · exact hid
    · exact hbehind field hfield
  · intro field hfield
    rcases mem_insert hfield with rfl | hfield
    · exact hv
    · exact hinner field hfield

/-- Fields are removed by `filter` without disturbing the order at any level. -/
theorem inOrder_filter {previous : Option FieldId} (keep : FieldId × Value → Bool)
    (h : InOrder previous o) : InOrder previous (o.filter keep) := by
  obtain ⟨hbehind, hascending, hinner⟩ := inOrder_iff.mp h
  refine inOrder_iff.mpr ⟨?_, hascending.sublist List.filter_sublist, ?_⟩
  · exact fun field hfield => hbehind field (List.mem_filter.mp hfield).1
  · exact fun field hfield => hinner field (List.mem_filter.mp hfield).1

/-! ## Properties of every level -/

section

variable {onField : FieldId → Value → Prop} {onWrapper : FieldId → Prop}

/-- What `Each` field has is kept by `insert`, if the new one has it. -/
theorem each_insert (h : Each onField onWrapper o) (hid : onField id v)
    (hv : v.Each onField onWrapper) :
    Each onField onWrapper (insert id v o) := by
  induction o with
  | nil => exact ⟨hid, hv, trivial⟩
  | cons field rest ih =>
    obtain ⟨hi, hw, hrest⟩ := h
    rw [insert]
    split
    · exact ⟨hid, hv, hi, hw, hrest⟩
    · split
      · exact ⟨hid, hv, hrest⟩
      · exact ⟨hi, hw, ih hrest⟩

/-- What `Each` field has is told field by field. -/
theorem each_iff : Each onField onWrapper o ↔
    ∀ field ∈ o, onField field.1 field.2 ∧ field.2.Each onField onWrapper := by
  induction o with
  | nil => exact iff_of_true trivial (by simp)
  | cons field rest ih =>
    obtain ⟨i, w⟩ := field
    rw [List.forall_mem_cons, ← ih, Each, and_assoc]

theorem Each.of_get? (h : Each onField onWrapper o) (hget : get? o id = some v) :
    onField id v ∧ v.Each onField onWrapper :=
  each_iff.mp h (id, v) (mem_of_get? hget)

/-- What holds of `Each` field after one was set held before, if it held of what the field
was. -/
theorem each_of_insert (h : Each onField onWrapper (insert id v o))
    (hold : ∀ w, get? o id = some w → onField id w ∧ w.Each onField onWrapper) :
    Each onField onWrapper o := by
  induction o with
  | nil => trivial
  | cons field rest ih =>
    obtain ⟨i, w⟩ := field
    rw [insert] at h
    rw [get?] at hold
    by_cases hlt : id < i
    · rw [if_pos hlt] at h
      exact h.2.2
    · rw [if_neg hlt] at h
      by_cases hi : id = i
      · subst hi
        rw [if_pos rfl] at h hold
        obtain ⟨hfield, hinner⟩ := hold w rfl
        exact ⟨hfield, hinner, h.2.2⟩
      · rw [if_neg hi] at h
        rw [if_neg (Ne.symm hi)] at hold
        exact ⟨h.1, h.2.1, ih h.2.2 hold⟩

theorem each_filter (keep : FieldId × Value → Bool) (h : Each onField onWrapper o) :
    Each onField onWrapper (o.filter keep) := by
  induction o with
  | nil => trivial
  | cons field rest ih =>
    obtain ⟨hi, hw, hrest⟩ := h
    rw [List.filter_cons]
    split
    · exact ⟨hi, hw, ih hrest⟩
    · exact ih hrest

end

theorem depth_insert_le {levels : Nat} (h : depth o ≤ levels) (hv : v.depth ≤ levels) :
    depth (insert id v o) ≤ levels := by
  induction o with
  | nil => exact Nat.max_le.mpr ⟨hv, Nat.zero_le _⟩
  | cons field rest ih =>
    obtain ⟨i, w⟩ := field
    obtain ⟨hw, hrest⟩ := Nat.max_le.mp h
    rw [insert]
    split
    · exact Nat.max_le.mpr ⟨hv, h⟩
    · split
      · exact Nat.max_le.mpr ⟨hv, hrest⟩
      · exact Nat.max_le.mpr ⟨hw, ih hrest⟩

/-- Fields without inner fields do not matter to the `depth`. -/
theorem depth_insert_scalar (s : Scalar) (hold : ∀ w, get? o id = some w → w.depth = 0) :
    depth (insert id (.scalar s) o) = depth o := by
  have hscalar : (Value.scalar s).depth = 0 := rfl
  induction o with
  | nil => rfl
  | cons field rest ih =>
    obtain ⟨i, w⟩ := field
    rw [get?] at hold
    rw [insert]
    by_cases hlt : id < i
    · rw [if_pos hlt, depth, hscalar, Nat.zero_max]
    · rw [if_neg hlt]
      by_cases hi : id = i
      · subst hi
        rw [if_pos rfl] at hold
        rw [if_pos rfl, depth, depth, hscalar, hold w rfl]
      · rw [if_neg (Ne.symm hi)] at hold
        rw [if_neg hi, depth, depth, ih hold]

theorem depth_filter_le (keep : FieldId × Value → Bool) (o : Object) :
    depth (o.filter keep) ≤ depth o := by
  induction o with
  | nil => exact Nat.le_refl _
  | cons field rest ih =>
    obtain ⟨i, w⟩ := field
    rw [List.filter_cons]
    split
    · exact Nat.max_le.mpr ⟨Nat.le_max_left .., ih.trans (Nat.le_max_right ..)⟩
    · exact ih.trans (Nat.le_max_right ..)

end Object

/-! ## Trees that can be read -/

/-- The value is one that can be read in a field of an object. -/
structure Value.Canonical (v : Value) : Prop where
  inOrder : v.InOrder
  markerFree : v.MarkerFree
  depth_le : v.depth ≤ Read.maxDepth
  isNormal : v.IsNormal
  ne_empty : v ≠ .scalar (.pathSet [])
  hasNoEmptyPathSet : v.HasNoEmptyPathSet

theorem Value.canonical_scalar {s : Scalar} (hnormal : s.IsNormal)
    (hne : s ≠ .pathSet []) :
    (Value.scalar s).Canonical :=
  ⟨trivial, trivial, Nat.zero_le _, ⟨hnormal, trivial⟩, fun h =>
    hne (Value.scalar.inj h), trivial⟩

namespace Object

variable {o : Object} {id : FieldId} {v : Value}

/-- An object stays `Canonical` when a canonical value is set by `insert`, in a field that
is no end marker. -/
theorem Canonical.insert (ho : Canonical o) (hid : ¬ id.IsEndMarker) (hv : v.Canonical) :
    Canonical (insert id v o) where
  inOrder := inOrder_insert ho.inOrder (FieldId.follows_none id) hv.inOrder
  markerFree := each_insert ho.markerFree hid hv.markerFree
  depth_le := depth_insert_le ho.depth_le hv.depth_le
  isNormal := each_insert ho.isNormal hv.isNormal.1 hv.isNormal.2
  hasNoEmptyPathSet := each_insert ho.hasNoEmptyPathSet hv.ne_empty hv.hasNoEmptyPathSet

/-- An object stays `Canonical` when fields are removed by `filter`. -/
theorem Canonical.filter (ho : Canonical o) (keep : FieldId × Value → Bool) :
    Canonical (o.filter keep) where
  inOrder := inOrder_filter keep ho.inOrder
  markerFree := each_filter keep ho.markerFree
  depth_le := (depth_filter_le keep o).trans ho.depth_le
  isNormal := each_filter keep ho.isNormal
  hasNoEmptyPathSet := each_filter keep ho.hasNoEmptyPathSet

end Object

end XrpLedger
