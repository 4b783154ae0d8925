import XrpLedger.Proofs.ScalarSpelling
import XrpLedger.Proofs.TreeShape

/-!
# Spellings of field trees

The octet strings that are laid out as a tree: headers in front of values, end markers
behind the fields of inner objects and behind the elements of arrays. The layout knows
neither order nor depth, and it has room for fields that go by an end marker. Reading
takes the spellings of the trees that obey these rules too.

- `Object.Spells`: the octet string is laid out as the object.
- `Read.run_succ_eq_ok`, `Read.run_eq_ok`: one round of the reader over fields, and all of
  them.
- `Object.decode_eq_ok`: what is read as an object is its spellings, if its fields are in
  order, none goes by an end marker, and nothing is nested more than ten levels deep.
- `Object.Readable.unique`: a string spells at most one such object.
-/

namespace XrpLedger

/-! ## Layout -/

mutual

/-- The octet string is laid out as the value. -/
def Value.Spells : Value → Bytes → Prop
  | .scalar s, u => s.Spells u
  | .object o, u => ∃ w, Object.Spells o w ∧ u = w ++ [objectEndOctet]
  | .array es, u => ∃ w, Elements.Spells es w ∧ u = w ++ [arrayEndOctet]

/-- The octet string is laid out as the fields of an object. -/
def Object.Spells : Object → Bytes → Prop
  | [], u => u = []
  | (id, v) :: rest, u =>
    ∃ h x y, id.encode = .ok h ∧ v.Fits id ∧ Value.Spells v x ∧ Object.Spells rest y ∧
      u = h ++ (x ++ y)

/-- The octet string is laid out as the elements of an array. -/
def Elements.Spells : Elements → Bytes → Prop
  | [], u => u = []
  | (id, o) :: rest, u =>
    ∃ h x y, id.encode = .ok h ∧ id.kindCode = FieldId.objectEnd.kindCode ∧
      Object.Spells o x ∧ Elements.Spells rest y ∧ u = h ++ ((x ++ [objectEndOctet]) ++ y)

end

/-- The octet string is laid out as the value by `Value.Spells`, and the value obeys the
rules for the inside of a tree. -/
structure Value.Readable (levels : Nat) (v : Value) (u : Bytes) : Prop where
  spells : v.Spells u
  inOrder : v.InOrder
  markerFree : v.MarkerFree
  depth_le : v.depth ≤ levels

/-- The octet string is laid out by `Object.Spells` as the fields of an object that obeys
the rules, after a previous field. -/
structure Object.Readable (levels : Nat) (previous : Option FieldId)
    (o : Object) (u : Bytes) :
    Prop where
  spells : Object.Spells o u
  inOrder : Object.InOrder previous o
  markerFree : Object.MarkerFree o
  depth_le : Object.depth o ≤ levels

/-- The octet string is laid out by `Elements.Spells` as the elements of an array that
obeys the rules. -/
structure Elements.Readable (levels : Nat) (es : Elements) (u : Bytes) : Prop where
  spells : Elements.Spells es u
  inOrder : Elements.InOrder es
  markerFree : Elements.MarkerFree es
  depth_le : Elements.depth es ≤ levels

/-! ## Rules level by level -/

namespace Object

variable {levels : Nat} {previous : Option FieldId} {u : Bytes}

theorem readable_nil : Readable levels previous [] u ↔ u = [] := by
  constructor
  · intro h
    exact h.spells
  · rintro rfl
    exact ⟨rfl, trivial, trivial, Nat.zero_le _⟩

/-- The fields of an object that is `Readable` are so one by one. -/
theorem readable_cons {id : FieldId} {v : Value} {rest : Object} :
    Readable levels previous ((id, v) :: rest) u ↔
      ∃ h x y, id.encode = .ok h ∧ id.Follows previous ∧ ¬ id.IsEndMarker ∧ v.Fits id ∧
        v.Readable levels x ∧ Readable levels (some id) rest y ∧ u = h ++ (x ++ y) := by
  constructor
  · rintro ⟨⟨h, x, y, hh, hfits, hx, hy, rfl⟩, ⟨hfollows, hv, hrest⟩,
      ⟨hid, hvfree, hrestfree⟩, hdepth⟩
    rw [depth, Nat.max_le] at hdepth
    exact ⟨h, x, y, hh, hfollows, hid, hfits, ⟨hx, hv, hvfree, hdepth.1⟩,
      ⟨hy, hrest, hrestfree, hdepth.2⟩, rfl⟩
  · rintro ⟨h, x, y, hh, hfollows, hid, hfits, hv, hrest, rfl⟩
    refine ⟨⟨h, x, y, hh, hfits, hv.spells, hrest.spells, rfl⟩,
      ⟨hfollows, hv.inOrder, hrest.inOrder⟩,
      ⟨hid, hv.markerFree, hrest.markerFree⟩, ?_⟩
    rw [depth, Nat.max_le]
    exact ⟨hv.depth_le, hrest.depth_le⟩

end Object

namespace Value

variable {levels : Nat} {u : Bytes}

theorem readable_scalar {s : Scalar} :
    (Value.scalar s).Readable levels u ↔ s.Spells u := by
  constructor
  · intro h
    exact h.spells
  · intro h
    exact ⟨h, trivial, trivial, Nat.zero_le _⟩

/-- An object inside another is `Readable` on one level less. -/
theorem readable_object {o : Object} :
    (Value.object o).Readable (levels + 1) u ↔
      ∃ w, Object.Readable levels none o w ∧ u = w ++ [objectEndOctet] := by
  constructor
  · rintro ⟨⟨w, hw, rfl⟩, horder, hfree, hdepth⟩
    exact ⟨w, ⟨hw, horder, hfree, Nat.le_of_succ_le_succ hdepth⟩, rfl⟩
  · rintro ⟨w, h, rfl⟩
    exact ⟨⟨w, h.spells, rfl⟩, h.inOrder, h.markerFree, Nat.succ_le_succ h.depth_le⟩

/-- The elements of an array inside an object are `Readable` on one level less. -/
theorem readable_array {es : Elements} :
    (Value.array es).Readable (levels + 1) u ↔
      ∃ w, es.Readable levels w ∧ u = w ++ [arrayEndOctet] := by
  constructor
  · rintro ⟨⟨w, hw, rfl⟩, horder, hfree, hdepth⟩
    exact ⟨w, ⟨hw, horder, hfree, Nat.le_of_succ_le_succ hdepth⟩, rfl⟩
  · rintro ⟨w, h, rfl⟩
    exact ⟨⟨w, h.spells, rfl⟩, h.inOrder, h.markerFree, Nat.succ_le_succ h.depth_le⟩

theorem not_readable_object_zero {o : Object} : ¬ (Value.object o).Readable 0 u :=
  fun h => absurd h.depth_le (Nat.not_succ_le_zero _)

theorem not_readable_array_zero {es : Elements} : ¬ (Value.array es).Readable 0 u :=
  fun h => absurd h.depth_le (Nat.not_succ_le_zero _)

end Value

namespace Elements

variable {levels : Nat} {u : Bytes}

theorem readable_nil : Elements.Readable levels [] u ↔ u = [] := by
  constructor
  · intro h
    exact h.spells
  · rintro rfl
    exact ⟨rfl, trivial, trivial, Nat.zero_le _⟩

theorem readable_cons {id : FieldId} {o : Object} {rest : Elements} :
    Elements.Readable levels ((id, o) :: rest) u ↔
      ∃ h x y, id.encode = .ok h ∧ id.kindCode = FieldId.objectEnd.kindCode ∧
      ¬ id.IsEndMarker ∧
        (Value.object o).Readable levels x ∧ Elements.Readable levels rest y ∧
          u = h ++ (x ++ y) := by
  constructor
  · rintro ⟨⟨h, x, y, hh, hkind, hx, hy, rfl⟩, ⟨ho, hrest⟩,
      ⟨hid, hofree, hrestfree⟩, hdepth⟩
    rw [Elements.depth, Nat.max_le] at hdepth
    exact ⟨h, _, y, hh, hkind, hid, ⟨⟨x, hx, rfl⟩, ho, hofree, hdepth.1⟩,
      ⟨hy, hrest, hrestfree, hdepth.2⟩, rfl⟩
  · rintro ⟨h, _, y, hh, hkind, hid, ho, hrest, rfl⟩
    obtain ⟨x, hx, rfl⟩ := ho.spells
    refine ⟨⟨h, x, y, hh, hkind, hx, hrest.spells, rfl⟩, ⟨ho.inOrder, hrest.inOrder⟩,
      ⟨hid, ho.markerFree, hrest.markerFree⟩, ?_⟩
    rw [Elements.depth, Nat.max_le]
    exact ⟨ho.depth_le, hrest.depth_le⟩

end Elements

/-! ## Reads -/

/-- The value is what a field of the kind holds. -/
def Value.Holds (v : Value) : FieldKind → Prop
  | .uint8 => ∃ a, v = .scalar (.uint8 a)
  | .uint16 => ∃ a, v = .scalar (.uint16 a)
  | .uint32 => ∃ a, v = .scalar (.uint32 a)
  | .uint64 => ∃ a, v = .scalar (.uint64 a)
  | .hash128 => ∃ a, v = .scalar (.hash128 a)
  | .hash160 => ∃ a, v = .scalar (.hash160 a)
  | .hash256 => ∃ a, v = .scalar (.hash256 a)
  | .amount => ∃ a, v = .scalar (.amount a)
  | .blob => ∃ a, v = .scalar (.blob a)
  | .accountId => ∃ a, v = .scalar (.accountId a)
  | .pathSet => ∃ a, v = .scalar (.pathSet a)
  | .vector256 => ∃ a, v = .scalar (.vector256 a)
  | .object => ∃ o, v = .object o
  | .array => ∃ es, v = .array es

/-- Every value `Holds` what its kind says. -/
theorem Value.holds_kind (v : Value) : v.Holds v.kind := by
  cases v with
  | scalar s => cases s <;> exact ⟨_, rfl⟩
  | object o => exact ⟨o, rfl⟩
  | array es => exact ⟨es, rfl⟩

namespace Read

variable {bound levels : Nat}

/-- The end marker of a run of fields is passed; without one, the octets must be at an
end. -/
def Ended : Option FieldId → Cursor → Cursor → Prop
  | none, c, c' => c.rest = [] ∧ c' = c
  | some e, c, c' => ∃ h, e.encode = .ok h ∧ c.Past h c'

/-- One round of a `run`: the run ends, or one more field is read and the rest of the run
after it. -/
theorem run_succ_eq_ok {value : FieldId → Read Value} {ends previous : Option FieldId}
    {rounds : Nat}
    {c c' : Cursor} {o : Object} :
    run value ends (rounds + 1) previous c = (.ok o, c') ↔
      (o = [] ∧ Ended ends c c') ∨
        ∃ id header v rest c₁ c₂, o = (id, v) :: rest ∧ some id ≠ ends ∧
        id.Follows previous ∧
          id.encode = .ok header ∧ c.Past header c₁ ∧ value id c₁ = (.ok v, c₂) ∧
            run value ends rounds (some id) c₂ = (.ok rest, c') := by
  rw [run]
  constructor
  · intro hrun
    obtain ⟨next, c₁, hnext, h⟩ := bind_eq_ok.mp hrun
    obtain ⟨rfl, hempty, rfl⟩ | ⟨id, header, rfl, hheader, hpast⟩ :=
      fieldId?_eq_ok.mp hnext
    · -- nothing is left
      simp only at h
      split at h
      · next hnone =>
        cases h
        exact .inl ⟨rfl, hnone ▸ ⟨hempty, rfl⟩⟩
      · cases h
    · simp only at h
      split at h
      · -- the end marker of the run
        next hend =>
        cases h
        exact .inl ⟨rfl, hend ▸ ⟨header, hheader, hpast⟩⟩
      · -- one more field
        next hend =>
        obtain ⟨⟨⟩, c₂, hcheck, hfield⟩ := bind_eq_ok.mp h
        rw [lift_apply, Prod.mk.injEq, FieldId.checkAfter_eq_ok] at hcheck
        obtain ⟨hfollows, rfl⟩ := hcheck
        obtain ⟨v, c₃, hv, hmore⟩ := bind_eq_ok.mp hfield
        obtain ⟨rest, c₄, hrest, hcons⟩ := bind_eq_ok.mp hmore
        cases hcons
        exact .inr ⟨id, header, v, rest, c₁, c₃, rfl, hend, hfollows, hheader,
          hpast, hv, hrest⟩
  · rintro (⟨rfl, hended⟩ | ⟨id, header, v, rest, c₁, c₂, rfl, hend,
      hfollows, hheader, hpast, hv, hrest⟩)
    · cases ends with
      | none =>
        obtain ⟨hempty, rfl⟩ := hended
        rw [bind_ok (fieldId?_eq_ok.mpr (.inl ⟨rfl, hempty, rfl⟩))]
        rfl
      | some e =>
        obtain ⟨header, hheader, hpast⟩ := hended
        rw [bind_ok (fieldId?_eq_ok.mpr (.inr ⟨e, header, rfl, hheader, hpast⟩))]
        simp only [if_true]
        rfl
    · rw [bind_ok (fieldId?_eq_ok.mpr (.inr ⟨id, header, rfl, hheader, hpast⟩))]
      simp only [if_neg hend]
      rw [bind_ok (by rw [lift_apply, FieldId.checkAfter_eq_ok.mpr hfollows]), bind_ok hv,
        bind_ok hrest]
      rfl

/-- A `run` of fields takes what is `Readable` as them, if the values of fields
are read. -/
theorem run_eq_ok {value : FieldId → Read Value} {ends : Option FieldId}
    (hends : ∀ e ∈ ends, e.IsEndMarker)
    (hvalue : ∀ id, Reads bound (value id) fun v u =>
      ¬ id.IsEndMarker ∧ v.Fits id ∧ v.Readable levels u) :
    ∀ rounds ≤ bound, ∀ previous c, c.rest.length < rounds → ∀ o c',
      run value ends rounds previous c = (.ok o, c') ↔
        ∃ u c₁, Object.Readable levels previous o u ∧ c.Past u c₁ ∧ Ended ends c₁ c'
  | 0, _, _, c, hc, _, _ => absurd hc (Nat.not_lt_zero _)
  | rounds + 1, hrounds, previous, c, hc, o, c' => by
    have ih := run_eq_ok hends hvalue rounds (Nat.le_of_succ_le hrounds)
    -- a header has octets, so one round less is enough behind it
    have hfewer : ∀ {id : FieldId} {header : Bytes} {c₁ : Cursor},
      id.encode = .ok header →
        c.Past header c₁ → c₁.rest.length < rounds := by
      intro id header c₁ hheader hpast
      have hlength := hpast.length_eq
      have hpos := List.length_pos_of_ne_nil (FieldId.encode_ne_nil hheader)
      omega
    rw [run_succ_eq_ok]
    constructor
    · rintro (⟨rfl, hended⟩ | ⟨id, header, v, rest, c₁, c₂, rfl, -, hfollows,
        hheader, hpast, hv, hrest⟩)
      · exact ⟨[], c, Object.readable_nil.mpr rfl, Cursor.past_nil.mpr rfl, hended⟩
      · have hc₁ := hfewer hheader hpast
        obtain ⟨x, ⟨hid, hfits, hx⟩, hpast'⟩ := (hvalue id c₁ (by omega) v c₂).mp hv
        have hc₂ := hpast'.length_eq
        obtain ⟨y, c₃, hy, hpast'', hended⟩ :=
          (ih (some id) c₂ (by omega) rest c').mp hrest
        exact ⟨header ++ (x ++ y), c₃,
          Object.readable_cons.mpr ⟨header, x, y, hheader, hfollows, hid,
          hfits, hx, hy, rfl⟩, hpast.trans (hpast'.trans hpast''), hended⟩
    · rintro ⟨u, c₃, ho, hpast, hended⟩
      cases o with
      | nil =>
        obtain rfl := Object.readable_nil.mp ho
        obtain rfl := Cursor.past_nil.mp hpast
        exact .inl ⟨rfl, hended⟩
      | cons field rest =>
        obtain ⟨id, v⟩ := field
        obtain ⟨header, x, y, hheader, hfollows, hid, hfits, hx, hy, rfl⟩ :=
          Object.readable_cons.mp ho
        obtain ⟨c₁, hpast₁, hpast⟩ := Cursor.past_append.mp hpast
        obtain ⟨c₂, hpast₂, hpast₃⟩ := Cursor.past_append.mp hpast
        have hc₁ := hfewer hheader hpast₁
        have hc₂ := hpast₂.length_eq
        have hend : some id ≠ ends := by
          rintro rfl
          exact hid (hends id rfl)
        exact .inr ⟨id, header, v, rest, c₁, c₂, rfl, hend, hfollows, hheader, hpast₁,
          (hvalue id c₁ (by omega) v c₂).mpr ⟨x, ⟨hid, hfits, hx⟩, hpast₂⟩,
          (ih (some id) c₂ (by omega) rest c').mpr ⟨y, c₃, hy, hpast₃, hended⟩⟩

/-- What a read takes one level further in, `nested` takes. -/
theorem Reads.nested {α : Type} {m : Read α} {S : α → Bytes → Prop}
    (hm : Reads bound m S) :
    Reads bound (nested m) S := by
  intro c hc a c'
  unfold Read.nested
  have hread := hm { c with depth := c.depth + 1 } hc
  constructor
  · intro h
    cases hinner : m { c with depth := c.depth + 1 } with
    | mk r c₁ =>
      rw [hinner] at h
      cases h
      obtain ⟨u, hu, hrest, hposition, hdepth⟩ := (hread a c₁).mp hinner
      exact ⟨u, hu, hrest, hposition, by simp [hdepth]⟩
  · rintro ⟨u, hu, hrest, hposition, hdepth⟩
    have hinner := (hread a { c' with depth := c.depth + 1 }).mpr ⟨u, hu,
      hrest, hposition, rfl⟩
    rw [hinner]
    simp [← hdepth]

/-- The `elements` of an array are read, if inner objects are. -/
theorem reads_elements {object : Read Object}
    (hobject : Reads bound object fun o u => (Value.object o).Readable levels u) :
    ∀ rounds ≤ bound, Reads rounds (elements object rounds) fun es u =>
      ∃ w, es.Readable levels w ∧ u = w ++ [arrayEndOctet]
  | 0, _ => by
    intro c hc
    cases hc
  | rounds + 1, hrounds => by
    have ih := reads_elements hobject rounds (Nat.le_of_succ_le hrounds)
    have hone :=
        fun id : FieldId => (hobject.mono (Nat.le_of_succ_le hrounds)).bind fun o =>
      ih.map fun rest => (id, o) :: rest
    have hread := reads_fieldId (n := rounds + 1) |>.bind_of_length (k := rounds)
      (fun id => Reads.ite (p := id = FieldId.arrayEnd) (reads_pure [])
        (Reads.ite (p := id.kindCode ≠ FieldId.objectEnd.kindCode ∨
          id = FieldId.objectEnd)
          (reads_fail (.typeMismatch id (.kind .object))) (hone id)))
      (by
        intro id u hu
        have := List.length_pos_of_ne_nil (FieldId.encode_ne_nil hu)
        omega)
    refine hread.congr fun es u => ?_
    constructor
    · rintro ⟨id, header, v, hheader, h, rfl⟩
      split at h
      · -- the end marker of the array
        next hend =>
        obtain ⟨rfl, rfl⟩ := h
        subst hend
        cases hheader
        exact ⟨[], Elements.readable_nil.mpr rfl, rfl⟩
      · next hend =>
        split at h
        · exact h.elim
        · -- one more element
          next hkind =>
          rw [not_or, not_not] at hkind
          obtain ⟨o, x, _, hx, ⟨rest, ⟨y, hy, rfl⟩, rfl⟩, rfl⟩ := h
          have hid : ¬ id.IsEndMarker := not_or.mpr ⟨hkind.2, hend⟩
          refine ⟨header ++ (x ++ y), Elements.readable_cons.mpr
            ⟨header, x, y, hheader, hkind.1, hid, hx, hy, rfl⟩, ?_⟩
          simp only [List.append_assoc]
    · rintro ⟨w, hw, rfl⟩
      cases es with
      | nil =>
        rw [Elements.readable_nil] at hw
        subst hw
        refine ⟨FieldId.arrayEnd, [arrayEndOctet], [], FieldId.encode_arrayEnd, ?_, rfl⟩
        rw [if_pos rfl]
        exact ⟨rfl, rfl⟩
      | cons element rest =>
        obtain ⟨id, o⟩ := element
        obtain ⟨header, x, y, hheader, hkind, hid, hx, hy, rfl⟩ :=
          Elements.readable_cons.mp hw
        obtain ⟨hobjectEnd, harrayEnd⟩ := not_or.mp hid
        refine ⟨id, header, x ++ (y ++ [arrayEndOctet]), hheader, ?_,
          by simp only [List.append_assoc]⟩
        rw [if_neg harrayEnd, if_neg (by rw [not_or, not_not]; exact ⟨hkind, hobjectEnd⟩)]
        exact ⟨o, x, _, hx, ⟨rest, ⟨y, hy, rfl⟩, rfl⟩, rfl⟩

/-- In a field of a kind, the values of the kind are read. -/
theorem reads_ofKind {α : Type} {m : Read α} {S : α → Bytes → Prop} {id : FieldId}
    {kind : FieldKind}
    {make : α → Value} (hkind : id.kind? = some kind) (hm : Reads bound m S)
    (hmake : ∀ a u, (make a).Readable levels u ↔ S a u)
    (hmade : ∀ a, (make a).kind = kind)
    (hall : ∀ v : Value, v.kind = kind → ∃ a, v = make a) :
    Reads bound (m >>= fun a => pure (make a)) fun v u =>
      v.Fits id ∧ v.Readable levels u := by
  refine (hm.map make).congr fun v u => ?_
  have hcode := FieldKind.code_of_ofCode? hkind
  constructor
  · rintro ⟨a, ha, rfl⟩
    exact ⟨by rw [Value.Fits, hmade, hcode], (hmake a u).mpr ha⟩
  · rintro ⟨hfits, hv⟩
    rw [Value.Fits, ← hcode] at hfits
    obtain ⟨a, rfl⟩ := hall v (FieldKind.code_inj hfits)
    exact ⟨a, (hmake a u).mp hv, rfl⟩

/-- The value of a field is read by `valueWith`, if inner objects and arrays are. -/
theorem reads_valueWith {object : Read Object} {array : Read Elements} {rounds : Nat}
    (hrounds : bound ≤ rounds)
    (hobject : Reads bound object fun o u => (Value.object o).Readable levels u)
    (harray : Reads bound array fun es u => (Value.array es).Readable levels u)
    (id : FieldId) :
    Reads bound (valueWith object array rounds id) fun v u =>
      ¬ id.IsEndMarker ∧ v.Fits id ∧ v.Readable levels u := by
  by_cases hid : id = FieldId.objectEnd ∨ id = FieldId.arrayEnd
  · -- no value is read in a field of an end marker
    rw [valueWith, if_pos hid]
    refine (reads_fail _).congr fun v u => ?_
    rw [false_iff]
    exact fun h => h.1 hid
  · rw [valueWith, if_neg hid]
    suffices h : Reads bound _ fun (v : Value) u => v.Fits id ∧ v.Readable levels u from
      h.congr fun v u => (and_iff_right hid).symm
    cases hkind : id.kind? with
    | none =>
      refine (reads_fail _).congr fun v u => ?_
      rw [false_iff]
      rintro ⟨hfits, -⟩
      rw [FieldId.kind?, ← hfits, FieldKind.ofCode?_code] at hkind
      cases hkind
    | some kind =>
      have hscalar : ∀ s : Scalar, ∀ u, (Value.scalar s).Readable levels u ↔ s.Spells u :=
        fun _ _ => Value.readable_scalar
      have hall : ∀ v : Value, v.kind = kind → v.Holds kind :=
        fun v hv => hv ▸ v.holds_kind
      cases kind with
      | uint8 =>
        exact reads_ofKind hkind reads_uint8 (fun _ => hscalar _) (fun _ => rfl) hall
      | uint16 =>
        exact reads_ofKind hkind reads_uint16 (fun _ => hscalar _) (fun _ => rfl) hall
      | uint32 =>
        exact reads_ofKind hkind reads_uint32 (fun _ => hscalar _) (fun _ => rfl) hall
      | uint64 =>
        exact reads_ofKind hkind reads_uint64 (fun _ => hscalar _) (fun _ => rfl) hall
      | hash128 =>
        exact reads_ofKind hkind (reads_fixed 16) (fun _ => hscalar _) (fun _ => rfl) hall
      | hash160 =>
        exact reads_ofKind hkind (reads_fixed 20) (fun _ => hscalar _) (fun _ => rfl) hall
      | hash256 =>
        exact reads_ofKind hkind (reads_fixed 32) (fun _ => hscalar _) (fun _ => rfl) hall
      | amount =>
        exact reads_ofKind hkind reads_amount (fun _ => hscalar _) (fun _ => rfl) hall
      | blob =>
        exact reads_ofKind hkind reads_payload (fun _ => hscalar _) (fun _ => rfl) hall
      | accountId =>
        exact reads_ofKind hkind reads_accountId (fun _ => hscalar _) (fun _ => rfl) hall
      | pathSet =>
        exact reads_ofKind hkind ((reads_pathSet rounds).mono hrounds)
          (fun _ => hscalar _) (fun _ => rfl) hall
      | vector256 =>
        exact reads_ofKind hkind reads_vector256 (fun _ => hscalar _) (fun _ => rfl) hall
      | object =>
        exact reads_ofKind hkind hobject (fun _ _ => Iff.rfl) (fun _ => rfl) hall
      | array =>
        exact reads_ofKind hkind harray (fun _ _ => Iff.rfl) (fun _ => rfl) hall

/-- Inner objects and arrays are read by `objectAt` and `arrayAt` on all levels that are
left. -/
theorem reads_at (rounds : Nat) :
    ∀ levels,
      Reads rounds (objectAt rounds levels)
        (fun o u => (Value.object o).Readable levels u) ∧
        Reads rounds (arrayAt rounds levels) (fun es u =>
          (Value.array es).Readable levels u)
  | 0 => by
    rw [objectAt, arrayAt]
    exact ⟨(reads_fail _).congr fun o u => by simp [Value.not_readable_object_zero],
      (reads_fail _).congr fun es u => by simp [Value.not_readable_array_zero]⟩
  | levels + 1 => by
    obtain ⟨hobject, harray⟩ := reads_at rounds levels
    have hvalue := reads_valueWith (Nat.le_refl rounds) hobject harray
    rw [objectAt, arrayAt]
    constructor
    · refine Reads.nested fun c hc o c' => ?_
      rw [run_eq_ok (by rintro e ⟨⟩; exact .inl rfl) hvalue rounds
        (Nat.le_refl rounds) none c hc]
      simp only [Value.readable_object]
      constructor
      · rintro ⟨w, c₁, ho, hpast, _, ⟨⟩, hend⟩
        exact ⟨w ++ [objectEndOctet], ⟨w, ho, rfl⟩, hpast.trans hend⟩
      · rintro ⟨_, ⟨w, ho, rfl⟩, hpast⟩
        obtain ⟨c₁, hpast, hend⟩ := Cursor.past_append.mp hpast
        exact ⟨w, c₁, ho, hpast, [objectEndOctet], FieldId.encode_objectEnd, hend⟩
    · exact (reads_elements hobject rounds (Nat.le_refl rounds)).nested.congr fun es u =>
        Value.readable_array.symm

/-- The value of a field is read by `valueAt` on all levels that are left. -/
theorem reads_valueAt (rounds levels : Nat) (id : FieldId) :
    Reads rounds (valueAt rounds levels id) fun v u =>
      ¬ id.IsEndMarker ∧ v.Fits id ∧ v.Readable levels u :=
  reads_valueWith (Nat.le_refl rounds) (reads_at rounds levels).1
  (reads_at rounds levels).2 id

/-- Fields are read by `run` up to the end of the octets. -/
theorem fields_eq_ok {levels : Nat} {bs : Bytes} {o : Object} {c' : Cursor} :
    run (valueAt (bs.length + 1) levels) none (bs.length + 1) none (Cursor.start bs) =
    (.ok o, c') ↔
      Object.Readable levels none o bs ∧ c' = (Cursor.start bs).advance bs.length := by
  rw [run_eq_ok (by rintro e ⟨⟩) (reads_valueAt (bs.length + 1) levels)
    _ (Nat.le_refl _) none
    (Cursor.start bs) (Nat.lt_succ_self _)]
  constructor
  · rintro ⟨u, c₁, ho, hpast, hempty, rfl⟩
    have hu : bs = u := by
      have := hpast.1
      rwa [hempty, List.append_nil] at this
    subst hu
    exact ⟨ho, hpast.unique (Cursor.past_advance (List.append_nil _).symm)⟩
  · rintro ⟨ho, rfl⟩
    refine ⟨bs, _, ho, Cursor.past_advance (w := []) (List.append_nil _).symm, ?_, rfl⟩
    simp [Cursor.advance, Cursor.start]

end Read

namespace Object

/-- What `decode` reads as an object is its spellings, if the object obeys the rules of
`Readable`. -/
theorem decode_eq_ok {bs : Bytes} {o : Object} :
    decode bs = .ok o ↔ Readable Read.maxDepth none o bs := by
  have hrun : ∀ c', _ ↔ _ := fun c' => @Read.fields_eq_ok Read.maxDepth bs o c'
  have hdecode : decode bs =
      (Read.run (Read.valueAt (bs.length + 1) Read.maxDepth) none (bs.length + 1) none
        (Cursor.start bs)).1 := rfl
  rw [hdecode]
  constructor
  · intro h
    exact ((hrun _).mp (Prod.ext h rfl)).1
  · intro h
    rw [(hrun _).mpr ⟨h, rfl⟩]

/-- A string is `Readable` as one object at most. -/
theorem Readable.unique {levels levels' : Nat} {o o' : Object} {bs : Bytes}
    (h : Readable levels none o bs) (h' : Readable levels' none o' bs) : o = o' := by
  -- both are what one read yields, with as many levels as either needs
  have hread := Read.fields_eq_ok.mpr
    ⟨{ h with depth_le := h.depth_le.trans (Nat.le_max_left levels levels') }, rfl⟩
  have hread' := Read.fields_eq_ok.mpr
    ⟨{ h' with depth_le := h'.depth_le.trans (Nat.le_max_right levels levels') }, rfl⟩
  rw [hread] at hread'
  cases hread'
  rfl

end Object

end XrpLedger
