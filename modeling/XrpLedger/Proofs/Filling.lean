import XrpLedger.Proofs.TreeShape

/-!
# Empty path sets and normal amounts

Two things about the scalars of a tree matter to its serialized form. A path set without
paths is put out like one that holds an empty path, and only that one is ever read. An
issued amount is read back only if its value is normal, as it is when it was rounded.

- `Object.filled`: the tree with an empty path in each path set that has none.
- `Object.HasNoEmptyPathSet`, `Object.filled_eq_self_iff`: the trees that this leaves
  alone.
- `Object.IsNormal`: all issued amounts of the tree are normal.
-/

namespace XrpLedger

/-! ## Scalars -/

namespace PathSet

/-- The paths, or an empty path if there are none. -/
def filled : List Path → List Path
  | [] => [[]]
  | p :: rest => p :: rest

/-- After `filled`, there is a path. -/
theorem filled_ne_nil (paths : List Path) : filled paths ≠ [] := by
  cases paths <;> simp [filled]

theorem filled_eq_self_iff {paths : List Path} : filled paths = paths ↔ paths ≠ [] := by
  cases paths <;> simp [filled]

end PathSet

/-- The scalar with an empty path in it, if it is a path set that has none. -/
def Scalar.filled : Scalar → Scalar
  | .pathSet paths => .pathSet (PathSet.filled paths)
  | s => s

/-- A scalar that is `filled` is of the same kind. -/
theorem Scalar.kind_filled (s : Scalar) : s.filled.kind = s.kind := by
  cases s <;> rfl

/-- Only a path set without paths is changed by `filled`. -/
theorem Scalar.filled_eq_self_iff (s : Scalar) : s.filled = s ↔ s ≠ .pathSet [] := by
  cases s with
  | pathSet paths => simp [filled, PathSet.filled_eq_self_iff]
  | _ => simp [filled]

/-- The amount is native or its value is normal. -/
def Amount.IsNormal : Amount → Prop
  | .native _ => True
  | .issued a => a.value.Normal

instance : (a : Amount) → Decidable a.IsNormal
  | .native _ => inferInstanceAs (Decidable True)
  | .issued a => inferInstanceAs (Decidable a.value.Normal)

/-- One unit of a currency. -/
def IssuedAmount.one : IssuedAmount where
  value := ⟨false, 1_000_000_000_000_000, -15⟩
  currency :=
    ⟨⟨List.replicate 12 0 ++ [0x55, 0x53, 0x44] ++ List.replicate 5 0, rfl⟩, by decide⟩
  issuer := ⟨⟨List.replicate 20 1, rfl⟩⟩
  not_isXrp := by decide

/-- The scalar is no issued amount or its value is normal. -/
def Scalar.IsNormal : Scalar → Prop
  | .amount a => a.IsNormal
  | _ => True

/-! ## Trees -/

mutual

/-- The value with an empty path in each path set that has none. -/
def Value.filled : Value → Value
  | .scalar s => .scalar s.filled
  | .object o => .object (Object.filled o)
  | .array es => .array (Elements.filled es)

/-- The object with an empty path in each path set that has none. -/
def Object.filled : Object → Object
  | [] => []
  | (id, v) :: rest => (id, Value.filled v) :: Object.filled rest

/-- The elements with an empty path in each path set that has none. -/
def Elements.filled : Elements → Elements
  | [] => []
  | (id, o) :: rest => (id, Object.filled o) :: Elements.filled rest

end

theorem Value.kind_filled (v : Value) : v.filled.kind = v.kind := by
  cases v with
  | scalar s => exact s.kind_filled
  | object o => rfl
  | array es => rfl

/-- Filling changes no kind, so a value `Fits` a field as before. -/
theorem Value.fits_filled {v : Value} {id : FieldId} : v.filled.Fits id ↔ v.Fits id := by
  rw [Fits, Fits, kind_filled]

mutual

theorem Value.inOrder_filled : ∀ v : Value, v.filled.InOrder ↔ v.InOrder
  | .scalar _ => Iff.rfl
  | .object o => Object.inOrder_filled none o
  | .array es => Elements.inOrder_filled es

/-- Filling keeps the fields `InOrder`. -/
theorem Object.inOrder_filled :
    ∀ (previous : Option FieldId) (o : Object),
      Object.InOrder previous (Object.filled o) ↔ Object.InOrder previous o
  | _, [] => Iff.rfl
  | _, (id, v) :: rest =>
    and_congr Iff.rfl (and_congr (Value.inOrder_filled v)
      (Object.inOrder_filled (some id) rest))

theorem Elements.inOrder_filled :
    ∀ es : Elements, Elements.InOrder (Elements.filled es) ↔ Elements.InOrder es
  | [] => Iff.rfl
  | (_, o) :: rest =>
    and_congr (Object.inOrder_filled none o) (Elements.inOrder_filled rest)

end

mutual

theorem Value.depth_filled : ∀ v : Value, v.filled.depth = v.depth
  | .scalar _ => rfl
  | .object o => congrArg (· + 1) (Object.depth_filled o)
  | .array es => congrArg (· + 1) (Elements.depth_filled es)

/-- Filling keeps the `depth`. -/
theorem Object.depth_filled :
    ∀ o : Object, Object.depth (Object.filled o) = Object.depth o
  | [] => rfl
  | (_, v) :: rest => by
    rw [Object.filled, Object.depth, Object.depth, Value.depth_filled v,
      Object.depth_filled rest]

theorem Elements.depth_filled :
    ∀ es : Elements, Elements.depth (Elements.filled es) = Elements.depth es
  | [] => rfl
  | (_, o) :: rest => by
    rw [Elements.filled, Elements.depth, Elements.depth, Object.depth_filled o,
      Elements.depth_filled rest]

end

mutual

theorem Value.markerFree_filled : ∀ v : Value, v.filled.MarkerFree ↔ v.MarkerFree
  | .scalar _ => Iff.rfl
  | .object o => Object.markerFree_filled o
  | .array es => Elements.markerFree_filled es

/-- Filling keeps the identities of fields and elements, so the object is `MarkerFree` as
before. -/
theorem Object.markerFree_filled :
    ∀ o : Object, Object.MarkerFree (Object.filled o) ↔ Object.MarkerFree o
  | [] => Iff.rfl
  | (_, v) :: rest =>
    and_congr Iff.rfl (and_congr (Value.markerFree_filled v)
      (Object.markerFree_filled rest))

theorem Elements.markerFree_filled :
    ∀ es : Elements, Elements.MarkerFree (Elements.filled es) ↔ Elements.MarkerFree es
  | [] => Iff.rfl
  | (_, o) :: rest =>
    and_congr Iff.rfl (and_congr (Object.markerFree_filled o)
      (Elements.markerFree_filled rest))

end

/-! ## Trees without empty path sets -/

/-- No value inside this one is a path set without paths. -/
def Value.HasNoEmptyPathSet (v : Value) : Prop :=
  v.Each (fun _ w => w ≠ .scalar (.pathSet [])) fun _ => True

/-- No field of the tree, at any level, is a path set without paths. -/
def Object.HasNoEmptyPathSet (o : Object) : Prop :=
  Object.Each (fun _ w => w ≠ .scalar (.pathSet [])) (fun _ => True) o

/-- No field inside the elements is a path set without paths. -/
def Elements.HasNoEmptyPathSet (es : Elements) : Prop :=
  Elements.Each (fun _ w => w ≠ .scalar (.pathSet [])) (fun _ => True) es

mutual

theorem Value.filled_eq_self_iff :
    ∀ v : Value, v.filled = v ↔ v ≠ .scalar (.pathSet []) ∧ v.HasNoEmptyPathSet
  | .scalar s => by
    rw [Value.filled, Value.scalar.injEq, s.filled_eq_self_iff, ne_eq, ne_eq,
      Value.scalar.injEq]
    exact (and_iff_left trivial).symm
  | .object o => by
    rw [Value.filled, Value.object.injEq, Object.filled_eq_self_iff o]
    exact (and_iff_right (by simp)).symm
  | .array es => by
    rw [Value.filled, Value.array.injEq, Elements.filled_eq_self_iff es]
    exact (and_iff_right (by simp)).symm

/-- A tree is changed by `filled` exactly if one of its path sets is empty. -/
theorem Object.filled_eq_self_iff :
    ∀ o : Object, Object.filled o = o ↔ Object.HasNoEmptyPathSet o
  | [] => by simp [Object.filled, Object.HasNoEmptyPathSet, Object.Each]
  | (id, v) :: rest => by
    rw [Object.filled, List.cons.injEq, Prod.mk.injEq, Value.filled_eq_self_iff v,
      Object.filled_eq_self_iff rest]
    simp only [Object.HasNoEmptyPathSet, Value.HasNoEmptyPathSet, Object.Each,
      true_and, and_assoc]

theorem Elements.filled_eq_self_iff :
    ∀ es : Elements, Elements.filled es = es ↔ Elements.HasNoEmptyPathSet es
  | [] => by simp [Elements.filled, Elements.HasNoEmptyPathSet, Elements.Each]
  | (id, o) :: rest => by
    rw [Elements.filled, List.cons.injEq, Prod.mk.injEq, Object.filled_eq_self_iff o,
      Elements.filled_eq_self_iff rest]
    simp only [Elements.HasNoEmptyPathSet, Object.HasNoEmptyPathSet,
      Elements.Each, true_and]

end

/-! ## Trees with normal amounts -/

/-- The value is no issued amount or it is a normal one. -/
def Value.IsNormalScalar : Value → Prop
  | .scalar s => s.IsNormal
  | _ => True

/-- The value and all inside it are normal, if they are issued amounts. -/
def Value.IsNormal (v : Value) : Prop :=
  v.IsNormalScalar ∧ v.Each (fun _ w => w.IsNormalScalar) fun _ => True

/-- All issued amounts of the tree are normal. -/
def Object.IsNormal (o : Object) : Prop :=
  Object.Each (fun _ w => w.IsNormalScalar) (fun _ => True) o

/-- All issued amounts inside the elements are normal. -/
def Elements.IsNormal (es : Elements) : Prop :=
  Elements.Each (fun _ w => w.IsNormalScalar) (fun _ => True) es

/-- The values of an object are normal one by one, in the sense of `Value.IsNormal`. -/
theorem Object.isNormal_cons {id : FieldId} {v : Value} {rest : Object} :
    IsNormal ((id, v) :: rest) ↔ v.IsNormal ∧ IsNormal rest := by
  simp only [IsNormal, Value.IsNormal, Each, and_assoc]

/-- The elements of an array are normal one by one, in the sense of `Object.IsNormal`. -/
theorem Elements.isNormal_cons {id : FieldId} {o : Object} {rest : Elements} :
    Elements.IsNormal ((id, o) :: rest) ↔ Object.IsNormal o ∧ Elements.IsNormal rest := by
  simp only [IsNormal, Object.IsNormal, Each, true_and]

end XrpLedger
