import XrpLedger.Proofs.ObjectMap

/-!
# Canonical order

An object keeps its fields in canonical order and a writer takes them in no other. So the
serialized form tells which fields there are, and nothing of how a caller came to set
them.

- `Object.Edit`, `Object.edited`: the object that a caller makes of nothing, change by
  change.
- `Object.finalValue`: the value that a field has in the end, without an object.
- `Object.edited_eq`: the object depends on these values alone.
- `Writer.Refused`, `Writer.writeField_eq_self`: the fields that leave a writer as it was.
- `Writer.writeFields_eq_none`: what a writer puts out that has taken all fields.
- `Object.encode_edited`: one form for all ways to set or write the same fields.
-/

namespace XrpLedger

namespace FieldId

/-- Canonical order compares the codes of the kinds first. -/
theorem lt_iff {a b : FieldId} :
    a < b ↔ a.kindCode < b.kindCode ∨ a.kindCode = b.kindCode ∧
    a.fieldCode < b.fieldCode := by
  have ha := a.fieldCode.toNat_lt
  have hb := b.fieldCode.toNat_lt
  rw [lt_def, rank, rank, UInt8.lt_iff_toNat_lt, UInt8.lt_iff_toNat_lt, ← UInt8.toNat_inj]
  omega

/-- An identity has no header exactly if one of its codes is zero. -/
theorem encode_eq_error {id : FieldId} {e : CodecError} : id.encode = .error e ↔
    (id.kindCode = 0 ∨ id.fieldCode = 0) ∧ e = .invalidFieldId (.zeroCode id) := by
  unfold encode
  split
  · next hzero => simp [hzero, eq_comm]
  · next hzero =>
    constructor
    · intro h
      repeat' split at h
      all_goals cases h
    · exact fun h => absurd h.1 hzero

end FieldId

namespace Object

variable {o : Object}

/-! ## Changes by a caller -/

/-- A change of an object: a field is set by its identity or by its name, or removed. -/
inductive Edit where
  | put (id : FieldId) (v : Value)
  | set (name : String) (v : Value)
  | remove (name : String)

namespace Edit

/-- The change that sets a field. -/
def ofField (field : FieldId × Value) : Edit :=
  .put field.1 field.2

/-- The object after a change. One that is refused leaves the object as it was. -/
def apply (o : Object) : Edit → Object
  | .put id v =>
    match Object.put o id v with
    | .ok (_, o') => o'
    | .error _ => o
  | .set name v =>
    match setNamed name v o with
    | .ok o' => o'
    | .error _ => o
  | .remove name => (eraseNamed o name).2

/-- What a change makes of the value of one field. -/
def revise (id : FieldId) (old : Option Value) : Edit → Option Value
  | .put i v => if i = id ∧ v.Fits i then some v else old
  | .set name v => if FieldId.ofName? name = some id ∧ v.Fits id then some v else old
  | .remove name => if FieldId.ofName? name = some id then none else old

theorem apply_put (o : Object) (id : FieldId) (v : Value) :
    apply o (.put id v) = if v.Fits id then insert id v o else o := by
  by_cases hfits : v.Fits id
  · rw [apply, Object.put, if_pos hfits, if_pos hfits]
  · rw [apply, Object.put, if_neg hfits, if_neg hfits]

/-- A field that is set by its name is set by its identity. -/
theorem apply_set (o : Object) (name : String) (v : Value) :
    apply o (.set name v) =
      match FieldId.ofName? name with
      | some id => apply o (.put id v)
      | none => o := by
  cases hname : FieldId.ofName? name with
  | none => rw [apply, setNamed, putNamed, FieldId.ofName, hname]
  | some id =>
    rw [apply, setNamed, putNamed, FieldId.ofName, hname]
    simp only [apply]
    cases Object.put o id v <;> rfl

theorem ascending_apply (ho : Ascending o) (e : Edit) : Ascending (e.apply o) := by
  have hput : ∀ id v, Ascending (apply o (.put id v)) := by
    intro id v
    rw [apply_put]
    split
    · exact ascending_insert ho id v
    · exact ho
  cases e with
  | put id v => exact hput id v
  | set name v =>
    rw [apply_set]
    split
    · exact hput _ v
    · exact ho
  | remove name =>
    rw [apply, eraseNamed]
    split
    · exact ascending_erase ho _
    · exact ho

/-- A change makes of each value what it should. -/
theorem get?_apply (ho : Ascending o) (e : Edit) (id : FieldId) :
    get? (e.apply o) id = e.revise id (get? o id) := by
  have hput : ∀ i v, get? (apply o (.put i v)) id = revise id (get? o id) (.put i v) := by
    intro i v
    rw [apply_put, revise]
    by_cases hfits : v.Fits i
    · rw [if_pos hfits, get?_insert]
      simp only [hfits, and_true]
    · rw [if_neg hfits, if_neg fun h => hfits h.2]
  cases e with
  | put i v => exact hput i v
  | set name v =>
    rw [apply_set, revise]
    cases FieldId.ofName? name with
    | none => simp
    | some i =>
      simp only [hput, revise, Option.some.injEq]
      by_cases hi : i = id
      · rw [hi]
      · rw [if_neg fun h => hi h.1, if_neg fun h => hi h.1]
  | remove name =>
    rw [apply, revise, eraseNamed]
    cases FieldId.ofName? name with
    | none => simp
    | some i =>
      simp only [Option.some.injEq]
      exact ho.get?_erase i id

end Edit

/-- The object that a caller makes of nothing. -/
def edited (edits : List Edit) : Object :=
  edits.foldl Edit.apply []

/-- The value that the changes leave a field with: the last one that is not refused
counts. -/
def finalValue (edits : List Edit) (id : FieldId) : Option Value :=
  edits.foldl (Edit.revise id) none

/-- The changes leave the given fields and no others. -/
def Leaves (edits : List Edit) (fields : List (FieldId × Value)) : Prop :=
  ∀ id v, finalValue edits id = some v ↔ (id, v) ∈ fields

theorem edited_concat (edits : List Edit) (e : Edit) :
    edited (edits ++ [e]) = e.apply (edited edits) :=
  List.foldl_concat ..

theorem finalValue_concat (edits : List Edit) (e : Edit) (id : FieldId) :
    finalValue (edits ++ [e]) id = e.revise id (finalValue edits id) :=
  List.foldl_concat ..

/-- Whatever a caller does, the fields are in order and have the values that should be
left. -/
theorem edited_inv (edits : List Edit) :
    Ascending (edited edits) ∧ ∀ id, get? (edited edits) id = finalValue edits id := by
  induction edits using List.reverseRecOn with
  | nil => exact ⟨ascending_nil, fun _ => rfl⟩
  | append_singleton edits e ih =>
    obtain ⟨hascending, hget⟩ := ih
    rw [edited_concat]
    refine ⟨e.ascending_apply hascending, fun id => ?_⟩
    rw [e.get?_apply hascending, hget, finalValue_concat]

/-- Changes that leave the same values make the same object. -/
theorem edited_eq {edits edits' : List Edit}
    (h : ∀ id, finalValue edits id = finalValue edits' id) :
    edited edits = edited edits' := by
  obtain ⟨hascending, hget⟩ := edited_inv edits
  obtain ⟨hascending', hget'⟩ := edited_inv edits'
  refine hascending.ext hascending' fun id => ?_
  rw [hget, hget', h]

/-- The changes leave the fields of the object that they make. -/
theorem leaves_edited (edits : List Edit) : Leaves edits (edited edits) := by
  obtain ⟨hascending, hget⟩ := edited_inv edits
  intro id v
  rw [hascending.mem_iff, hget]

theorem Leaves.edited_eq {edits edits' : List Edit} {fields : List (FieldId × Value)}
    (h : Leaves edits fields) (h' : Leaves edits' fields) :
    edited edits = edited edits' := by
  refine Object.edited_eq fun id => Option.ext fun v => ?_
  rw [h, h']

/-- Fields that fit their values are all set. -/
theorem edited_ofField {fields : List (FieldId × Value)}
    (hfits : ∀ field ∈ fields, field.2.Fits field.1) :
    edited (fields.map Edit.ofField) = insertAll fields [] := by
  rw [edited, List.foldl_map]
  refine List.foldl_ext _ _ _ fun o field hfield => ?_
  rw [Edit.ofField, Edit.apply_put, if_pos (hfits field hfield)]

/-- Distinct fields that are set, in whatever order, are what is left. -/
theorem leaves_ofField {fields : List (FieldId × Value)}
    (hdistinct : (fields.map Prod.fst).Nodup)
    (hfits : ∀ field ∈ fields, field.2.Fits field.1) :
    Leaves (fields.map Edit.ofField) fields := by
  intro id v
  rw [leaves_edited, edited_ofField hfits, mem_insertAll hdistinct]

end Object

/-! ## Writing field by field -/

namespace Writer

variable {w : Writer} {id : FieldId} {v : Value} {e : CodecError}

/-- Why a field is refused before any of it is written: it may not hold the value, it does
not come after the last field, or its identity has no header. -/
inductive Refused (last : Option FieldId) (id : FieldId) (v : Value) :
    CodecError → Prop where
  | kind (h : ¬ v.Fits id) : Refused last id v (.typeMismatch id (Expectation.ofField id))
  | order {p : FieldId} (hfits : v.Fits id) (hlast : last = some p) (h : ¬ p < id) :
    Refused last id v (.fieldOrder p id)
  | header (hfits : v.Fits id) (hfollows : id.Follows last)
    (h : id.kindCode = 0 ∨ id.fieldCode = 0) :
    Refused last id v (.invalidFieldId (.zeroCode id))

theorem headerFor_eq_error {last : Option FieldId} :
    FieldId.headerFor last id v = .error e ↔ Refused last id v e := by
  constructor
  · intro h
    unfold FieldId.headerFor at h
    split at h
    · next hfits =>
      unfold FieldId.headerAfter at h
      split at h
      · next hcheck =>
        unfold FieldId.checkAfter at hcheck
        cases last with
        | none => cases hcheck
        | some p =>
          simp only at hcheck
          split at hcheck
          · cases hcheck
          · next hlt =>
            cases hcheck
            cases h
            exact .order hfits rfl hlt
      · next hcheck =>
        obtain ⟨hzero, rfl⟩ := FieldId.encode_eq_error.mp h
        exact .header hfits (FieldId.checkAfter_eq_ok.mp hcheck) hzero
    · next hfits =>
      cases h
      exact .kind hfits
  · intro h
    cases h with
    | kind hfits => rw [FieldId.headerFor, if_neg hfits]
    | order hfits hlast hlt =>
      subst hlast
      rw [FieldId.headerFor, if_pos hfits, FieldId.headerAfter,
        FieldId.checkAfter, if_neg hlt]
    | header hfits hfollows hzero =>
      rw [FieldId.headerFor, if_pos hfits, FieldId.headerAfter,
        FieldId.checkAfter_eq_ok.mpr hfollows]
      exact FieldId.encode_eq_error.mpr ⟨hzero, rfl⟩

/-- A field is refused with no trace, or its header and what there is of its value are
written. -/
theorem writeField_eq (w : Writer) (id : FieldId) (v : Value) :
    w.writeField id v =
      match FieldId.headerFor w.last id v with
      | .error e => (w, some e)
      | .ok header =>
          (⟨w.bytes ++ (header ++ v.output.bytes), some id⟩, v.output.failure) := by
  unfold writeField writeFieldId FieldId.headerFor
  split
  · cases FieldId.headerAfter w.last id with
    | error e => rfl
    | ok header =>
      show (Writer.mk ((w.bytes ++ header) ++ v.output.bytes) _, _) = _
      rw [List.append_assoc]
  · rfl

/-- A field leaves the writer as it was exactly if it is refused before any of it is
written. -/
theorem writeField_eq_self : w.writeField id v = (w, some e) ↔ Refused w.last id v e := by
  rw [writeField_eq, ← headerFor_eq_error]
  cases hheader : FieldId.headerFor w.last id v with
  | error e' => simp
  | ok header =>
    -- a header that is written takes room
    refine iff_of_false (fun h => ?_) (by simp)
    have hbytes : w.bytes ++ (header ++ v.output.bytes) = w.bytes :=
      congrArg (fun r => r.1.bytes) h
    obtain ⟨-, -, hencode⟩ := FieldId.headerFor_eq_ok.mp hheader
    have hnil := List.append_right_eq_self.mp hbytes
    exact FieldId.encode_ne_nil hencode (List.append_eq_nil_iff.mp hnil).1

/-- Fields are written one by one with the outcome that they have as a run. -/
theorem writeFields_outcome (w : Writer) (fields : Object) :
    match Object.encodeAfter w.last fields with
    | .ok bs => ∃ last, w.writeFields fields = (⟨w.bytes ++ bs, last⟩, none)
    | .error e => ∃ w', w.writeFields fields = (w', some e) := by
  induction fields generalizing w with
  | nil =>
    rw [Object.encodeAfter, writeFields]
    exact ⟨w.last, by rw [List.append_nil]⟩
  | cons field rest ih =>
    obtain ⟨id, v⟩ := field
    rw [writeFields, writeField_eq, Object.encodeAfter]
    cases FieldId.headerFor w.last id v with
    | error e => exact ⟨w, rfl⟩
    | ok header =>
      simp only [Output.toExcept]
      cases v.output.failure with
      | some e => exact ⟨_, rfl⟩
      | none =>
        have hrest := ih ⟨w.bytes ++ (header ++ v.output.bytes), some id⟩
        simp only at hrest ⊢
        cases hencode : Object.encodeAfter (some id) rest with
        | error e =>
          rw [hencode] at hrest
          exact hrest
        | ok tail =>
          rw [hencode] at hrest
          obtain ⟨last, hlast⟩ := hrest
          refine ⟨last, ?_⟩
          rw [hlast]
          simp only [List.append_assoc]

/-- A fresh writer takes all fields of a list exactly if they have a form as an object. -/
theorem writeFields_eq_none {fields : Object} {bs : Bytes} :
    (∃ last, empty.writeFields fields = (⟨bs, last⟩, none)) ↔
    Object.encode fields = .ok bs := by
  have houtcome := writeFields_outcome empty fields
  show _ ↔ Object.encodeAfter none fields = .ok bs
  change match Object.encodeAfter none fields with
    | .ok bs => ∃ last, empty.writeFields fields = (⟨bs, last⟩, none)
    | .error e => ∃ w', empty.writeFields fields = (w', some e) at houtcome
  cases hencode : Object.encodeAfter none fields with
  | error e =>
    rw [hencode] at houtcome
    obtain ⟨w', hw'⟩ := houtcome
    simp [hw']
  | ok tail =>
    rw [hencode] at houtcome
    obtain ⟨last, hlast⟩ := houtcome
    simp [hlast]

end Writer

namespace Object

/-! ## One form for the same fields -/

/-- What has a form as a run is in order, and every value fits its field. -/
theorem ascending_of_encodeAfter {previous : Option FieldId} {o : Object} {bs : Bytes}
    (h : encodeAfter previous o = .ok bs) :
    (∀ field ∈ o, field.1.Follows previous) ∧ Ascending o ∧
    ∀ field ∈ o, field.2.Fits field.1 := by
  induction o generalizing previous bs with
  | nil => exact ⟨by simp, ascending_nil, by simp⟩
  | cons field rest ih =>
    obtain ⟨id, v⟩ := field
    rw [encodeAfter_cons, joined_eq_ok] at h
    obtain ⟨header, _, hheader, hmore, rfl⟩ := h
    obtain ⟨x, y, -, hrest, rfl⟩ := joined_eq_ok.mp hmore
    obtain ⟨hfits, hfollows, -⟩ := FieldId.headerFor_eq_ok.mp hheader
    obtain ⟨hless, hascending, hfits'⟩ := ih hrest
    have hless' : ∀ field ∈ rest, id < field.1 := fun field hfield =>
      FieldId.follows_some.mp (hless field hfield)
    refine ⟨?_, ascending_cons.mpr ⟨hless', hascending⟩,
      List.forall_mem_cons.mpr ⟨hfits, hfits'⟩⟩
    exact List.forall_mem_cons.mpr
      ⟨hfollows, fun field hfield => hfollows.trans (hless' field hfield)⟩

/-- Distinct fields that fit their values are left by setting them in any order. All
changes that leave them make one form, and signatures of it cover the same octets. A fresh
writer takes fields exactly if they are strictly ascending, by the codes of their kinds
and then by their own, they fit their values, and the object that is made of them has a
form, which the writer then holds. A field leaves a writer as it was exactly if it is
refused for its kind, its place or its identity. -/
theorem encode_edited {fields : List (FieldId × Value)}
    (hdistinct : (fields.map Prod.fst).Nodup)
    (hfits : ∀ field ∈ fields, field.2.Fits field.1) :
    (∀ order : List (FieldId × Value), order.Perm fields →
      Leaves (order.map Edit.ofField) fields) ∧
    (∀ edits edits', Leaves edits fields → Leaves edits' fields →
      encode (edited edits) = encode (edited edits') ∧
        encodeSigning (edited edits) = encodeSigning (edited edits')) ∧
    (∀ (calls : List (FieldId × Value)) (bs : Bytes),
      (∃ last, Writer.empty.writeFields calls = (⟨bs, last⟩, none)) ↔
        calls.Pairwise (fun f g => f.1.kindCode < g.1.kindCode ∨
          f.1.kindCode = g.1.kindCode ∧ f.1.fieldCode < g.1.fieldCode) ∧
        (∀ call ∈ calls, call.2.Fits call.1) ∧
        encode (edited (calls.map Edit.ofField)) = .ok bs) ∧
    ∀ (w : Writer) (id : FieldId) (v : Value) (e : CodecError),
      w.writeField id v = (w, some e) ↔ Writer.Refused w.last id v e := by
  refine ⟨fun order horder id v => ?_, fun edits edits' h h' => ?_,
    fun calls bs => ?_, ?_⟩
  · have hdistinct' : (order.map Prod.fst).Nodup :=
      (horder.map Prod.fst).nodup_iff.mpr hdistinct
    have hfits' : ∀ field ∈ order, field.2.Fits field.1 := fun field hfield =>
      hfits field (horder.mem_iff.mp hfield)
    rw [leaves_ofField hdistinct' hfits', horder.mem_iff]
  · rw [h.edited_eq h']
    exact ⟨rfl, rfl⟩
  · simp only [← FieldId.lt_iff, Writer.writeFields_eq_none]
    constructor
    · intro h
      obtain ⟨-, hascending, hfits'⟩ := ascending_of_encodeAfter h
      rw [edited_ofField hfits', hascending.insertAll_perm (List.Perm.refl calls)]
      exact ⟨List.pairwise_map.mp hascending, hfits', h⟩
    · rintro ⟨hless, hfits', h⟩
      have hascending : Ascending calls := List.pairwise_map.mpr hless
      rwa [edited_ofField hfits', hascending.insertAll_perm (List.Perm.refl calls)] at h
  · intro w id v e
    exact Writer.writeField_eq_self

/-- A fee and a sequence number. -/
def feeAndSequence : List (FieldId × Value) :=
  [(Field.fee, .scalar (.amount (.native ⟨12, by decide⟩))),
    (Field.sequence, .scalar (.uint32 1))]

/-- Changes that leave them, with a field that is set and removed, one that is set twice
and one that is refused. -/
def hesitant : List Edit :=
  [.put Field.sequence (.scalar (.uint32 9)), .set "Flags" (.scalar (.uint32 0)),
    .set "Fee" (.scalar (.amount (.native ⟨12, by decide⟩))), .remove "Flags",
    .put Field.sequence (.scalar (.uint32 1)), .set "Sequence" (.scalar (.uint16 2))]

theorem leaves_hesitant : Leaves hesitant feeAndSequence := by
  have hmade : edited hesitant = feeAndSequence.reverse := by decide +kernel
  intro id v
  rw [leaves_edited, hmade, List.mem_reverse]

theorem encode_edited_hesitant :
    encode (edited hesitant) = .ok [0x24, 0, 0, 0, 1, 0x68, 0x40, 0, 0, 0,
      0, 0, 0, 12] := by
  obtain ⟨hset, hform, -, -⟩ := @encode_edited feeAndSequence (by decide) (by decide)
  rw [(hform _ _ leaves_hesitant (hset _ (List.Perm.refl _))).1]
  rfl

end Object

end XrpLedger
