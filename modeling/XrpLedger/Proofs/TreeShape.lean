import XrpLedger.Proofs.Headers

/-!
# Shapes of field trees

Properties that hold of a tree if they hold at each of its levels.

- `Object.Each`: a property of all fields and of all identities that wrap elements, at
  every level.
- `Object.InOrder`: the fields of every object of the tree are in canonical order.
- `Object.depth`: how deep objects and arrays are nested.
- `Object.MarkerFree`: no field and no element goes by the identity of an end marker.
-/

namespace XrpLedger

/-! ## Properties of every level -/

mutual

/-- Every field inside a value has the one property, and every wrapper of an element the
other. -/
def Value.Each (onField : FieldId → Value → Prop) (onWrapper : FieldId → Prop) :
    Value → Prop
  | .scalar _ => True
  | .object o => Object.Each onField onWrapper o
  | .array es => Elements.Each onField onWrapper es

/-- Every field of an object and inside it has the one property, and every wrapper of an
element the other. -/
def Object.Each (onField : FieldId → Value → Prop) (onWrapper : FieldId → Prop) :
    Object → Prop
  | [] => True
  | (id, v) :: rest =>
    onField id v ∧ Value.Each onField onWrapper v ∧ Object.Each onField onWrapper rest

/-- Every field inside the elements has the one property, and every wrapper the other. -/
def Elements.Each (onField : FieldId → Value → Prop) (onWrapper : FieldId → Prop) :
    Elements → Prop
  | [] => True
  | (id, o) :: rest =>
    onWrapper id ∧ Object.Each onField onWrapper o ∧ Elements.Each onField onWrapper rest

end

section

variable {onField onField' : FieldId → Value → Prop}
    {onWrapper onWrapper' : FieldId → Prop}

mutual

theorem Value.Each.mono (hfield : ∀ id v, onField id v → onField' id v)
    (hwrapper : ∀ id, onWrapper id → onWrapper' id) :
    ∀ {v : Value}, v.Each onField onWrapper → v.Each onField' onWrapper'
  | .scalar _, _ => trivial
  | .object _, h => Object.Each.mono hfield hwrapper h
  | .array _, h => Elements.Each.mono hfield hwrapper h

/-- The predicate `Object.Each` is monotone in both properties. -/
theorem Object.Each.mono (hfield : ∀ id v, onField id v → onField' id v)
    (hwrapper : ∀ id, onWrapper id → onWrapper' id) :
    ∀ {o : Object}, Object.Each onField onWrapper o → Object.Each onField' onWrapper' o
  | [], _ => trivial
  | (id, v) :: _, ⟨hid, hv, hrest⟩ =>
    ⟨hfield id v hid, Value.Each.mono hfield hwrapper hv,
      Object.Each.mono hfield hwrapper hrest⟩

theorem Elements.Each.mono (hfield : ∀ id v, onField id v → onField' id v)
    (hwrapper : ∀ id, onWrapper id → onWrapper' id) :
    ∀ {es : Elements}, Elements.Each onField onWrapper es →
    Elements.Each onField' onWrapper' es
  | [], _ => trivial
  | (id, _) :: _, ⟨hid, ho, hrest⟩ =>
    ⟨hwrapper id hid, Object.Each.mono hfield hwrapper ho,
      Elements.Each.mono hfield hwrapper hrest⟩

end

end

/-! ## Order -/

mutual

/-- The objects inside a value are in canonical order. -/
def Value.InOrder : Value → Prop
  | .scalar _ => True
  | .object o => Object.InOrder none o
  | .array es => Elements.InOrder es

/-- An object and those inside it are in canonical order, also after a previous field. -/
def Object.InOrder : Option FieldId → Object → Prop
  | _, [] => True
  | previous, (id, v) :: rest =>
    id.Follows previous ∧ Value.InOrder v ∧ Object.InOrder (some id) rest

/-- The objects of an array are in canonical order. -/
def Elements.InOrder : Elements → Prop
  | [] => True
  | (_, o) :: rest => Object.InOrder none o ∧ Elements.InOrder rest

end

/-! ## Depth -/

mutual

/-- The number of objects and arrays around the innermost of a value, itself included. -/
def Value.depth : Value → Nat
  | .scalar _ => 0
  | .object o => Object.depth o + 1
  | .array es => Elements.depth es + 1

/-- The greatest depth of the values of an object. -/
def Object.depth : Object → Nat
  | [] => 0
  | (_, v) :: rest => max (Value.depth v) (Object.depth rest)

/-- The greatest depth of the elements of an array, each of which is an object. -/
def Elements.depth : Elements → Nat
  | [] => 0
  | (_, o) :: rest => max (Object.depth o + 1) (Elements.depth rest)

end

/-! ## End markers -/

/-- The identity marks the end of an object, `objectEnd`, or of an array, `arrayEnd`. -/
def FieldId.IsEndMarker (id : FieldId) : Prop :=
  id = objectEnd ∨ id = arrayEnd

instance (id : FieldId) : Decidable id.IsEndMarker :=
  inferInstanceAs (Decidable (_ ∨ _))

/-- No field inside the value and no element has the identity of an end marker:
`Value.Each` one is free of it. -/
def Value.MarkerFree (v : Value) : Prop :=
  v.Each (fun id _ => ¬ id.IsEndMarker) fun id => ¬ id.IsEndMarker

/-- No field and no element has the identity of an end marker, at any level: `Object.Each`
one is free of it. -/
def Object.MarkerFree (o : Object) : Prop :=
  Object.Each (fun id _ => ¬ id.IsEndMarker) (fun id => ¬ id.IsEndMarker) o

/-- No field inside the elements and none of them has the identity of an end marker. -/
def Elements.MarkerFree (es : Elements) : Prop :=
  Elements.Each (fun id _ => ¬ id.IsEndMarker) (fun id => ¬ id.IsEndMarker) es

end XrpLedger
