import XrpLedger.Proofs.Filling
import XrpLedger.Proofs.TreeSpelling

/-!
# What is put out is a spelling

A write that is not stopped puts out a spelling of the tree, with an empty path in each
path set that has none, and its fields are in order.

- `joined`: the outcome of two writes, one behind the other.
- `Scalar.spells_of_output`, `Object.spells_of_encodeAfter`: what is put out is a
  spelling.
- `Object.encodeAfter_filled`: path sets without paths are put out as if they held an
  empty one.
-/

namespace XrpLedger

/-! ## Outcomes of writes -/

/-- The octets of two writes, if neither is refused; else the refusal of the first that
is. -/
def joined (r r' : Except CodecError Bytes) : Except CodecError Bytes :=
  match r with
  | .error e => .error e
  | .ok x =>
    match r' with
    | .error e => .error e
    | .ok y => .ok (x ++ y)

section

variable {r r' r'' : Except CodecError Bytes} {u : Bytes}

/-- Two writes are `joined` if neither is refused. -/
theorem joined_eq_ok :
    joined r r' = .ok u ↔ ∃ x y, r = .ok x ∧ r' = .ok y ∧ u = x ++ y := by
  cases r with
  | error e => simp [joined]
  | ok x =>
    cases r' with
    | error e => simp [joined]
    | ok y => simp [joined, eq_comm]

/-- It does not matter which of three writes are `joined` first. -/
theorem joined_assoc : joined (joined r r') r'' = joined r (joined r' r'') := by
  cases r with
  | error e => rfl
  | ok x =>
    cases r' with
    | error e => rfl
    | ok y => cases r'' <;> simp [joined]

end

namespace Output

theorem toExcept_of (bs : Bytes) : (of bs).toExcept = .ok bs := rfl

theorem toExcept_refuse (e : CodecError) : (refuse e).toExcept = .error e := rfl

/-- The outcome of two outputs is `joined` from their outcomes. -/
theorem toExcept_append (a b : Output) :
    (a ++ b).toExcept = joined a.toExcept b.toExcept := by
  obtain ⟨bs, failure⟩ := a
  cases failure with
  | some e => rfl
  | none =>
    obtain ⟨cs, failure⟩ := b
    cases failure <;> rfl

end Output

theorem toExcept_payload (bs : Bytes) :
    (payload bs).toExcept = joined (Length.encode bs.length) (.ok bs) := by
  unfold payload
  cases Length.encode bs.length <;> rfl

/-- A payload up to `Length.limit` is put out behind its length. -/
theorem payload_eq_ok {bs u : Bytes} :
    (payload bs).toExcept = .ok u ↔ bs.length ≤ Length.limit ∧
      u = Length.octets bs.length ++ bs := by
  rw [toExcept_payload, Length.encode_eq]
  split
  · next hlimit => simp [joined, hlimit, eq_comm]
  · next hlimit => simp [joined, hlimit]

theorem Length.limit_le_readLimit : limit ≤ readLimit := by decide

/-! ## Path sets -/

namespace PathStep

/-- A path step is put out if it has a member. -/
theorem output_eq_ok {s : PathStep} {u : Bytes} :
    s.output.toExcept = .ok u ↔ s.bits ≠ 0 ∧ u = s.octets := by
  unfold output
  split
  · next hbits => simp [Output.toExcept_refuse, hbits]
  · next hbits => simp [Output.toExcept_of, hbits, octets, eq_comm]

end PathStep

namespace PathSet

/-- A path is put out if all its steps have a member. -/
theorem pathOutput_eq_ok {p : Path} {u : Bytes} :
    (pathOutput p).toExcept = .ok u ↔
    (∀ s ∈ p, s.bits ≠ 0) ∧ u = p.flatMap PathStep.octets := by
  induction p generalizing u with
  | nil => simp [pathOutput, Output.toExcept_of, eq_comm]
  | cons s p ih =>
    rw [pathOutput, Output.toExcept_append, joined_eq_ok, List.forall_mem_cons,
      List.flatMap_cons]
    simp only [ih, PathStep.output_eq_ok]
    constructor
    · rintro ⟨x, y, ⟨hs, rfl⟩, ⟨hp, rfl⟩, rfl⟩
      exact ⟨⟨hs, hp⟩, rfl⟩
    · rintro ⟨⟨hs, hp⟩, rfl⟩
      exact ⟨_, _, ⟨hs, rfl⟩, ⟨hp, rfl⟩, rfl⟩

/-- Paths that are `Stepped` are put out, and no others: every step has a member. -/
theorem output_eq_ok {p : Path} {rest : List Path} {u : Bytes} :
    (output (p :: rest)).toExcept = .ok u ↔ Stepped (p :: rest) ∧ u = octets p rest := by
  induction rest generalizing p u with
  | nil =>
    rw [output, Output.toExcept_append, joined_eq_ok, Stepped,
      List.forall_mem_singleton, octets]
    simp only [pathOutput_eq_ok, Output.toExcept_of, Except.ok.injEq]
    constructor
    · rintro ⟨x, y, ⟨hp, rfl⟩, rfl, rfl⟩
      exact ⟨hp, rfl⟩
    · rintro ⟨hp, rfl⟩
      exact ⟨_, _, ⟨hp, rfl⟩, rfl, rfl⟩
  | cons q rest ih =>
    rw [output, Output.toExcept_append, joined_eq_ok, Stepped,
      List.forall_mem_cons, octets]
    simp only [Output.toExcept_append, joined_eq_ok, pathOutput_eq_ok, Output.toExcept_of,
      Except.ok.injEq, ih, Stepped]
    constructor
    · rintro ⟨x, _, ⟨hp, rfl⟩, ⟨_, z, rfl, ⟨hrest, rfl⟩, rfl⟩, rfl⟩
      exact ⟨⟨hp, hrest⟩, rfl⟩
    · rintro ⟨⟨hp, hrest⟩, rfl⟩
      exact ⟨_, _, ⟨hp, rfl⟩, ⟨_, _, rfl, ⟨hrest, rfl⟩, rfl⟩, rfl⟩

/-- No path at all is put out like an empty path, as `filled` makes it. -/
theorem output_filled (paths : List Path) :
    (output (filled paths)).toExcept = (output paths).toExcept := by
  cases paths <;> rfl

end PathSet

/-! ## Scalars -/

/-- A scalar that is put out `Spells` its octets, if it is `filled`. -/
theorem Scalar.spells_of_output {s : Scalar} {u : Bytes} (hs : s.IsNormal)
    (h : s.output.toExcept = .ok u) : s.filled.Spells u := by
  cases s with
  | amount a =>
    cases h
    cases a with
    | native d => exact .inl rfl
    | issued a => exact ⟨hs, rfl⟩
  | blob bs =>
    obtain ⟨hlimit, rfl⟩ := payload_eq_ok.mp h
    exact ⟨hlimit.trans Length.limit_le_readLimit, rfl⟩
  | accountId a =>
    obtain ⟨-, rfl⟩ := payload_eq_ok.mp h
    rw [a.length_toBytes]
    rfl
  | pathSet paths =>
    -- the paths put out are those of the filled path set, of which there is one
    rw [Scalar.output, ← PathSet.output_filled] at h
    obtain ⟨p, rest, hpaths⟩ := List.exists_cons_of_ne_nil (PathSet.filled_ne_nil paths)
    rw [hpaths, PathSet.output_eq_ok] at h
    exact ⟨p, rest, hpaths, hpaths ▸ h.1, h.2⟩
  | vector256 hashes =>
    obtain ⟨hlimit, rfl⟩ := payload_eq_ok.mp h
    exact ⟨hlimit.trans Length.limit_le_readLimit, rfl⟩
  | _ =>
    -- numbers and hashes are their octets
    cases h
    rfl

/-! ## Trees -/

/-- An object is put out by `encodeAfter` field by field. -/
theorem Object.encodeAfter_cons (previous : Option FieldId) (id : FieldId) (v : Value)
    (rest : Object) :
    encodeAfter previous ((id, v) :: rest) =
      joined (FieldId.headerFor previous id v)
        (joined v.output.toExcept (encodeAfter (some id) rest)) := by
  rw [encodeAfter]
  -- the outcome is that of the first of the three that is refused
  cases FieldId.headerFor previous id v with
  | error e => rfl
  | ok header =>
    cases v.output.toExcept with
    | error e => rfl
    | ok bs => cases encodeAfter (some id) rest <;> rfl

/-- An object inside another is put out with its end marker. -/
theorem Value.toExcept_output_object (o : Object) :
    (Value.object o).output.toExcept =
      joined (Object.encodeAfter none o) (.ok [objectEndOctet]) := by
  rw [output]
  cases Object.encodeAfter none o <;> rfl

/-- An array is put out element by element, if all elements are wrapped as objects. -/
theorem Elements.toExcept_output_cons {id : FieldId}
    (hkind : id.kindCode = FieldId.objectEnd.kindCode)
    (o : Object) (rest : Elements) :
    (Elements.output ((id, o) :: rest)).toExcept =
      joined id.encode
        (joined (Value.object o).output.toExcept (Elements.output rest).toExcept) := by
  rw [output, if_pos hkind, Value.toExcept_output_object]
  cases id.encode with
  | error e => rfl
  | ok header =>
    cases Object.encodeAfter none o with
    | error e => rfl
    | ok bs =>
      simp only [Output.toExcept_append, Output.toExcept_of]
      cases (Elements.output rest).toExcept <;> simp [joined]

/-- An element is put out as its header, its object and the end marker of that. -/
theorem Elements.output_cons_eq_ok {id : FieldId} {o : Object}
    {rest : Elements} {u : Bytes} :
    (Elements.output ((id, o) :: rest)).toExcept = .ok u ↔
      id.kindCode = FieldId.objectEnd.kindCode ∧ ∃ h x y, id.encode = .ok h ∧
        Object.encodeAfter none o = .ok x ∧ (Elements.output rest).toExcept = .ok y ∧
          u = h ++ ((x ++ [objectEndOctet]) ++ y) := by
  by_cases hkind : id.kindCode = FieldId.objectEnd.kindCode
  · rw [toExcept_output_cons hkind, Value.toExcept_output_object]
    simp only [joined_eq_ok, hkind, true_and, Except.ok.injEq]
    constructor
    · rintro ⟨h, _, hh, ⟨_, y, ⟨x, _, hx, rfl, rfl⟩, hy, rfl⟩, rfl⟩
      exact ⟨h, x, y, hh, hx, hy, rfl⟩
    · rintro ⟨h, x, y, hh, hx, hy, rfl⟩
      exact ⟨h, _, hh, ⟨_, y, ⟨x, _, hx, rfl, rfl⟩, hy, rfl⟩, rfl⟩
  · rw [output, if_neg hkind]
    simp [Output.toExcept_refuse, hkind]

mutual

/-- A value that is put out `Spells` its octets, and what is inside it is in order. -/
theorem Value.spells_of_output :
    ∀ {v : Value} {u : Bytes}, v.IsNormal → v.output.toExcept = .ok u →
      v.filled.Spells u ∧ v.InOrder
  | .scalar s, u, hv, h => ⟨s.spells_of_output hv.1 h, trivial⟩
  | .object o, u, hv, h => by
    rw [Value.toExcept_output_object, joined_eq_ok] at h
    obtain ⟨w, _, hw, ⟨⟩, rfl⟩ := h
    obtain ⟨hspells, horder⟩ := Object.spells_of_encodeAfter hv.2 hw
    exact ⟨⟨w, hspells, rfl⟩, horder⟩
  | .array es, u, hv, h => by
    obtain ⟨w, hspells, rfl, horder⟩ := Elements.spells_of_output hv.2 h
    exact ⟨⟨w, hspells, rfl⟩, horder⟩

/-- An object that `encodeAfter` puts out `Spells` its octets, `filled`, and its fields
are `InOrder`. -/
theorem Object.spells_of_encodeAfter :
    ∀ {previous : Option FieldId} {o : Object} {u : Bytes}, Object.IsNormal o →
      Object.encodeAfter previous o = .ok u →
        Object.Spells (Object.filled o) u ∧ Object.InOrder previous o
  | _, [], u, _, h => by
    cases h
    exact ⟨rfl, trivial⟩
  | previous, (id, v) :: rest, u, ho, h => by
    obtain ⟨hv, hrest⟩ := Object.isNormal_cons.mp ho
    rw [Object.encodeAfter_cons, joined_eq_ok] at h
    obtain ⟨header, _, hheader, hmore, rfl⟩ := h
    obtain ⟨x, y, hx, hy, rfl⟩ := joined_eq_ok.mp hmore
    obtain ⟨hfits, hfollows, hencode⟩ := FieldId.headerFor_eq_ok.mp hheader
    obtain ⟨hspells, horder⟩ := Value.spells_of_output hv hx
    obtain ⟨hspells', horder'⟩ := Object.spells_of_encodeAfter hrest hy
    exact ⟨⟨header, x, y, hencode, Value.fits_filled.mpr hfits, hspells, hspells', rfl⟩,
      hfollows, horder, horder'⟩

/-- The elements that are put out are spelled in front of the end marker of
their array. -/
theorem Elements.spells_of_output :
    ∀ {es : Elements} {u : Bytes}, Elements.IsNormal es →
    (Elements.output es).toExcept = .ok u →
      ∃ w, Elements.Spells (Elements.filled es) w ∧ u = w ++ [arrayEndOctet] ∧
      Elements.InOrder es
  | [], u, _, h => by
    cases h
    exact ⟨[], rfl, rfl, trivial⟩
  | (id, o) :: rest, u, hes, h => by
    obtain ⟨ho, hrest⟩ := Elements.isNormal_cons.mp hes
    obtain ⟨hkind, header, x, y, hheader, hx, hy, rfl⟩ := Elements.output_cons_eq_ok.mp h
    obtain ⟨hspells, horder⟩ := Object.spells_of_encodeAfter ho hx
    obtain ⟨w, hspells', rfl, horder'⟩ := Elements.spells_of_output hrest hy
    exact ⟨_, ⟨header, x, w, hheader, hkind, hspells, hspells', rfl⟩,
      by simp only [List.append_assoc], horder, horder'⟩

end

/-! ## Filled trees -/

/-- A scalar is put out as if it were `filled`. -/
theorem Scalar.toExcept_output_filled (s : Scalar) :
    s.filled.output.toExcept = s.output.toExcept := by
  cases s with
  | pathSet paths => exact PathSet.output_filled paths
  | _ => rfl

mutual

theorem Value.toExcept_output_filled :
    ∀ v : Value, v.filled.output.toExcept = v.output.toExcept
  | .scalar s => s.toExcept_output_filled
  | .object o => by
    rw [Value.filled, Value.toExcept_output_object, Value.toExcept_output_object,
      Object.encodeAfter_filled none o]
  | .array es => Elements.toExcept_output_filled es

/-- A path set without paths is put out by `encodeAfter` as if it held an empty one. -/
theorem Object.encodeAfter_filled :
    ∀ (previous : Option FieldId) (o : Object),
      Object.encodeAfter previous (Object.filled o) = Object.encodeAfter previous o
  | _, [] => rfl
  | previous, (id, v) :: rest => by
    have hheader : FieldId.headerFor previous id v.filled =
        FieldId.headerFor previous id v := by
      simp only [FieldId.headerFor, Value.fits_filled]
    rw [Object.filled, Object.encodeAfter_cons, Object.encodeAfter_cons, hheader,
      Value.toExcept_output_filled v, Object.encodeAfter_filled (some id) rest]

theorem Elements.toExcept_output_filled :
    ∀ es : Elements, (Elements.output (Elements.filled es)).toExcept =
    (Elements.output es).toExcept
  | [] => rfl
  | (id, o) :: rest => by
    rw [Elements.filled]
    -- an element that is not wrapped as an object is refused either way
    by_cases hkind : id.kindCode = FieldId.objectEnd.kindCode
    · rw [Elements.toExcept_output_cons hkind, Elements.toExcept_output_cons hkind,
        Value.toExcept_output_object, Value.toExcept_output_object,
        Object.encodeAfter_filled none o, Elements.toExcept_output_filled rest]
    · rw [Elements.output, Elements.output, if_neg hkind, if_neg hkind]

end

end XrpLedger
