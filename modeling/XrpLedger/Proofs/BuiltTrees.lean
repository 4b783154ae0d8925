import XrpLedger.Proofs.ObjectMap
import XrpLedger.Proofs.Rounding
import XrpLedger.Tree.Json

/-!
# Trees that are built

However a tree is built, its issued amounts are normal if those are that it is built from.
Those from words, from text and from JSON are. A tree from JSON is in order too, and it
has only fields that are known by name.

- `Object.isNormal_put`: fields that are set.
- `Object.built_ofJson`: what a tree from JSON has at every level.
- `Object.named_ofJson`, `Object.isNormal_ofJson`: the order and the names of such a tree,
  and its amounts.
-/

namespace XrpLedger

/-! ## Outcomes -/

section

variable {ε α β : Type} {r : Except ε α}

theorem eq_ok_of_toOption {a : α} (h : r.toOption = some a) : r = .ok a := by
  cases r with
  | error e => cases h
  | ok b =>
    cases h
    rfl

theorem exists_of_map_eq_ok {f : α → β} {b : β} (h : r.map f = .ok b) :
    ∃ a, r = .ok a ∧ b = f a := by
  cases r with
  | error e => cases h
  | ok a =>
    cases h
    exact ⟨a, rfl, rfl⟩

theorem except_bind_eq_ok {f : α → Except ε β} {b : β} :
    (r >>= f) = .ok b ↔ ∃ a, r = .ok a ∧ f a = .ok b := by
  cases r <;> simp [bind, Except.bind]

theorem except_pure_eq_ok {a b : α} : (pure a : Except ε α) = .ok b ↔ a = b := by
  simp [pure, Except.pure]

/-- A list is read by `mapM` if its items are, one by one. -/
theorem mapM_eq_ok {f : α → Except ε β} {as : List α} {bs : List β} :
    as.mapM f = .ok bs ↔ List.Forall₂ (fun a b => f a = .ok b) as bs := by
  induction as generalizing bs with
  | nil => rw [List.mapM_nil, except_pure_eq_ok, List.forall₂_nil_left_iff, eq_comm]
  | cons a as ih =>
    rw [List.mapM_cons, List.forall₂_cons_left_iff]
    simp only [except_bind_eq_ok, except_pure_eq_ok, ih]
    constructor
    · rintro ⟨b, hb, bs', hbs', rfl⟩
      exact ⟨b, bs', hb, hbs', rfl⟩
    · rintro ⟨b, bs', hb, hbs', rfl⟩
      exact ⟨b, hb, bs', hbs', rfl⟩

end

/-! ## Amounts -/

theorem IssuedAmount.normal_ofParts? {currency issuer value : Option Json}
    {a : IssuedAmount}
    (h : IssuedAmount.ofParts? currency issuer value = some a) : a.value.Normal := by
  unfold ofParts? at h
  split at h
  · next c i v hc hi hv =>
    obtain ⟨hvalue, -, -⟩ := make_eq_ok.mp (eq_ok_of_toOption h)
    rw [hvalue]
    unfold Json.readMember? at hv
    split at hv
    · exact IssuedValue.normal_ofText (eq_ok_of_toOption hv)
    · cases hv
  · cases h

/-- The value of an amount from JSON is `Normal`, since it is read from text. -/
theorem IssuedAmount.normal_ofJson? {j : Json} {a : IssuedAmount}
    (h : IssuedAmount.ofJson? j = some a) :
    a.value.Normal := by
  unfold ofJson? at h
  split at h
  · exact normal_ofParts? h
  · exact normal_ofParts? h
  · cases h

/-- An amount from JSON `IsNormal`, be it native or issued. -/
theorem Amount.isNormal_ofJson {j : Json} {a : Amount} (h : Amount.ofJson j = .ok a) :
    a.IsNormal := by
  unfold ofJson at h
  split at h
  · next b hb =>
    cases h
    unfold ofJson? at hb
    split at hb
    · obtain ⟨d, -, rfl⟩ := Option.map_eq_some_iff.mp hb
      trivial
    · obtain ⟨b, hissued, rfl⟩ := Option.map_eq_some_iff.mp hb
      exact IssuedAmount.normal_ofJson? hissued
  · cases h

/-- A scalar that `Scalar.ofJson` reads `IsNormal`. -/
theorem Scalar.isNormal_ofJson {id : FieldId} {kind : FieldKind} {j : Json} {s : Scalar}
    (h : Scalar.ofJson id kind j = .ok s) : s.IsNormal := by
  -- only amounts have a value, and objects and arrays are not read as scalars
  cases kind with
  | amount =>
    obtain ⟨a, ha, rfl⟩ := exists_of_map_eq_ok h
    exact Amount.isNormal_ofJson ha
  | object => cases h
  | array => cases h
  | _ =>
    obtain ⟨a, -, rfl⟩ := exists_of_map_eq_ok h
    trivial

/-! ## Trees -/

namespace Object

variable {o : Object} {id : FieldId} {v : Value}

theorem isNormal_nil : IsNormal [] := trivial

/-- A tree that `IsNormal` stays so when a normal value is set. -/
theorem isNormal_insert (ho : IsNormal o) (hv : v.IsNormal) : IsNormal (insert id v o) :=
  each_insert ho hv.1 hv.2

/-- A value that `Fits` its field is set by `put`, and no other. -/
theorem put_eq_ok {old : Option Value} {o' : Object} :
    put o id v = .ok (old, o') ↔ v.Fits id ∧ get? o id = old ∧ insert id v o = o' := by
  unfold put
  split
  · next hfits => simp [hfits]
  · next hfits => simp [hfits]

/-- A tree that `IsNormal` stays so when a normal value is put. -/
theorem isNormal_put {old : Option Value} {o' : Object} (ho : IsNormal o)
    (hv : v.IsNormal) (h : put o id v = .ok (old, o')) : IsNormal o' := by
  obtain ⟨-, -, rfl⟩ := put_eq_ok.mp h
  exact isNormal_insert ho hv

end Object

/-! ## Trees from JSON -/

/-- The field is one of the table. -/
def FieldId.IsKnown (id : FieldId) : Prop :=
  (FieldInfo.byId? id).isSome = true

instance (id : FieldId) : Decidable id.IsKnown :=
  inferInstanceAs (Decidable (_ = _))

/-- Fields that `ofName` finds are known. -/
theorem FieldId.isKnown_of_ofName {name : String} {id : FieldId}
    (h : ofName name = .ok id) :
    id.IsKnown := by
  have hrow : ∀ info ∈ FieldInfo.table, info.id.IsKnown := fun info hinfo =>
    List.find?_isSome.mpr ⟨info, hinfo, beq_self_eq_true info.id⟩
  unfold ofName at h
  split at h
  · next i hname =>
    cases h
    obtain ⟨info, hinfo, rfl⟩ := Option.map_eq_some_iff.mp hname
    exact hrow info (List.mem_of_find?_eq_some hinfo)
  · cases h

section

variable {onField : FieldId → Value → Prop} {onWrapper : FieldId → Prop}

/-- What fields and wrappers from JSON have: they go by known names, a value fits its
field, and a wrapper is that of an object. -/
structure JsonHave (onField : FieldId → Value → Prop) (onWrapper : FieldId → Prop) :
    Prop where
  scalar : ∀ {id : FieldId} {s : Scalar} {kind : FieldKind} {j : Json}, id.IsKnown →
    (Value.scalar s).Fits id → Scalar.ofJson id kind j = .ok s → onField id (.scalar s)
  object : ∀ {id : FieldId} {o : Object}, id.IsKnown → (Value.object o).Fits id →
    onField id (.object o)
  array : ∀ {id : FieldId} {es : Elements}, id.IsKnown → (Value.array es).Fits id →
    onField id (.array es)
  wrapper : ∀ {id : FieldId}, id.IsKnown → id.kindCode = FieldKind.object.code →
    onWrapper id

mutual

/-- A value that `ofJson` reads is built so inside, and it has what its field has if it
fits. -/
theorem Value.built_ofJson (hhave : JsonHave onField onWrapper) {id : FieldId} {j : Json}
    {v : Value} (hid : id.IsKnown) (h : Value.ofJson id j = .ok v) :
    (v.InOrder ∧ v.Each onField onWrapper) ∧ (v.Fits id → onField id v) := by
  unfold Value.ofJson at h
  split at h
  · cases h
  · next members _ =>
    split at h
    · next o ho =>
      cases h
      exact ⟨Object.built_ofMembers hhave (o := []) ⟨trivial, trivial⟩ ho,
        hhave.object hid⟩
    · cases h
  · next items _ =>
    split at h
    · next es hes =>
      cases h
      exact ⟨Elements.built_ofItems hhave hes, hhave.array hid⟩
    · cases h
  · split at h
    · next s hs =>
      cases h
      exact ⟨⟨trivial, trivial⟩, fun hfits => hhave.scalar hid hfits hs⟩
    · cases h
  termination_by sizeOf j

/-- A tree that `ofJson` reads is `InOrder`, and it has at every level what its fields and
wrappers have. -/
theorem Object.built_ofJson (hhave : JsonHave onField onWrapper) {j : Json} {o : Object}
    (h : Object.ofJson j = .ok o) :
    Object.InOrder none o ∧ Object.Each onField onWrapper o := by
  unfold Object.ofJson at h
  split at h
  · exact Object.built_ofMembers hhave (o := []) ⟨trivial, trivial⟩ h
  · cases h
  termination_by sizeOf j

/-- The members that `ofMembers` reads are put into an object in order, one by one. -/
theorem Object.built_ofMembers (hhave : JsonHave onField onWrapper)
    {members : List (String × Json)}
    {o o' : Object} (ho : Object.InOrder none o ∧ Object.Each onField onWrapper o)
    (h : Object.ofMembers o members = .ok o') :
    Object.InOrder none o' ∧ Object.Each onField onWrapper o' := by
  unfold Object.ofMembers at h
  split at h
  · cases h
    exact ho
  · split at h
    · cases h
    · next id hname =>
      split at h
      · cases h
      · next v hv =>
        split at h
        · cases h
        · next old o₁ hput =>
          obtain ⟨⟨horder, heach⟩, hfield⟩ :=
            Value.built_ofJson hhave (FieldId.isKnown_of_ofName hname) hv
          obtain ⟨hfits, -, rfl⟩ := Object.put_eq_ok.mp hput
          -- the object that is put into keeps both, so the members behind are read on
          refine Object.built_ofMembers hhave ⟨?_, ?_⟩ h
          · exact Object.inOrder_insert ho.1 (FieldId.follows_none id) horder
          · exact Object.each_insert ho.2 (hfield hfits) heach
  termination_by sizeOf members

/-- The items that `ofItems` reads are wrapped objects, each of which is built so. -/
theorem Elements.built_ofItems (hhave : JsonHave onField onWrapper) {id : FieldId}
    {items : List Json} {es : Elements} (h : Elements.ofItems id items = .ok es) :
    Elements.InOrder es ∧ Elements.Each onField onWrapper es := by
  unfold Elements.ofItems at h
  split at h
  · cases h
    exact ⟨trivial, trivial⟩
  · split at h
    · cases h
    · next inner hname =>
      split at h
      · next hkind =>
        split at h
        · cases h
        · next o ho =>
          split at h
          · cases h
          · next hes =>
            cases h
            obtain ⟨horder, heach⟩ := Object.built_ofJson hhave ho
            obtain ⟨horder', heach'⟩ := Elements.built_ofItems hhave hes
            exact ⟨⟨horder, horder'⟩,
              hhave.wrapper (FieldId.isKnown_of_ofName hname) hkind, heach, heach'⟩
      · cases h
  · cases h
  termination_by sizeOf items

end

end

/-! ## Trees that go by names -/

/-- All fields inside the value are known and fit, and all wrappers are known and those of
objects. -/
def Value.IsNamed (v : Value) : Prop :=
  v.Each (fun id w => id.IsKnown ∧ w.Fits id)
    fun id => id.IsKnown ∧ id.kindCode = FieldKind.object.code

/-- All fields inside the elements are known and fit, and all wrappers are known and those
of objects. -/
def Elements.IsNamed (es : Elements) : Prop :=
  Elements.Each (fun id w => id.IsKnown ∧ w.Fits id)
    (fun id => id.IsKnown ∧ id.kindCode = FieldKind.object.code) es

namespace Object

variable {j : Json} {o : Object}

/-- All fields and wrappers are known, the values fit their fields, and the wrappers are
those of objects. -/
def IsNamed (o : Object) : Prop :=
  Each (fun id v => id.IsKnown ∧ v.Fits id)
    (fun id => id.IsKnown ∧ id.kindCode = FieldKind.object.code) o

/-- A tree from JSON is `InOrder`, and it goes by names of the table. -/
theorem named_ofJson (h : ofJson j = .ok o) : InOrder none o ∧ IsNamed o :=
  built_ofJson ⟨fun hid hfits _ => ⟨hid, hfits⟩, fun hid hfits => ⟨hid, hfits⟩,
    fun hid hfits => ⟨hid, hfits⟩, fun hid hkind => ⟨hid, hkind⟩⟩ h

/-- The issued amounts of a tree from JSON are normal, so it `IsNormal`. -/
theorem isNormal_ofJson (h : ofJson j = .ok o) : IsNormal o := by
  refine (built_ofJson ⟨fun _ _ hs => ?_, fun _ _ => ?_, fun _ _ => ?_,
    fun _ _ => ?_⟩ h).2
  · exact Scalar.isNormal_ofJson hs
  · trivial
  · trivial
  · trivial

end Object

end XrpLedger
