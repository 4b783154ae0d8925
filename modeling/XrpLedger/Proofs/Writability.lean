import XrpLedger.Proofs.BuiltTrees
import XrpLedger.Proofs.CanonicalOrder

/-!
# What can be written

An object that is built field by field, from JSON or from octets is in canonical order at
every level, and its values fit their fields. So a writer never refuses it for its order
or for the kind of a value. Four causes are left: an identity without a header, an element
that is not wrapped as an object, a payload that is too long, and a path step without
members.

- `Object.Built`: the objects that the ways to build one lead to.
- `Object.Built.wellFormed`: their order and their kinds, at every level.
- `Object.Writable`, `WriteRefusal`: the objects that can be written, and the causes that
  are left.
- `Settles`: whether a write succeeds is settled by a condition, and it fails for these
  causes only.
- `Object.settles_encode`: this holds of all objects with order and kinds.
- `Object.encode_built`: what becomes of an object that was built.
-/

namespace XrpLedger

/-! ## Conditions -/

/-- The step has an account, a currency or an issuer. -/
def PathStep.HasMember (s : PathStep) : Prop :=
  s.account.isSome ∨ s.currency.isSome ∨ s.issuer.isSome

instance (s : PathStep) : Decidable s.HasMember :=
  inferInstanceAs (Decidable (_ ∨ _))

/-- The greatest number of hashes in a payload. -/
def maxHashes : Nat := 28710

/-- A payload is no longer than the longest one, and every path step has a member. -/
def Scalar.Writable : Scalar → Prop
  | .blob bs => bs.length ≤ Length.limit
  | .vector256 hashes => hashes.length ≤ maxHashes
  | .pathSet paths => ∀ p ∈ paths, ∀ s ∈ p, s.HasMember
  | _ => True

/-- The value has inner fields, or is a scalar that can be written. -/
def Value.IsWritableScalar : Value → Prop
  | .scalar s => s.Writable
  | _ => True

/-- The field has a code, and its value can be written if it is a scalar. -/
def FieldId.WritableWith (id : FieldId) (v : Value) : Prop :=
  id.fieldCode ≠ 0 ∧ v.IsWritableScalar

/-- The identity wraps objects and has a code. -/
def FieldId.WritableWrapper (id : FieldId) : Prop :=
  id.kindCode = FieldKind.object.code ∧ id.fieldCode ≠ 0

/-- The value and all inside it can be written. -/
def Value.Writable (v : Value) : Prop :=
  v.IsWritableScalar ∧ v.Each FieldId.WritableWith FieldId.WritableWrapper

/-- All fields and all wrappers can be written, at every level. -/
def Object.Writable (o : Object) : Prop :=
  Object.Each FieldId.WritableWith FieldId.WritableWrapper o

/-- All elements of an array can be written. -/
def Elements.Writable (es : Elements) : Prop :=
  Elements.Each FieldId.WritableWith FieldId.WritableWrapper es

theorem Object.writable_cons {id : FieldId} {v : Value} {rest : Object} :
    Writable ((id, v) :: rest) ↔ id.fieldCode ≠ 0 ∧ v.Writable ∧ Writable rest := by
  simp only [Writable, Value.Writable, Each, FieldId.WritableWith, and_assoc]

theorem Elements.writable_cons {id : FieldId} {o : Object} {rest : Elements} :
    Elements.Writable ((id, o) :: rest) ↔
      id.WritableWrapper ∧ Object.Writable o ∧ Elements.Writable rest :=
  Iff.rfl

/-- Why an object that was built is refused: an identity has no header, an element is not
wrapped as an object, a payload is too long, or a path step has no members. -/
inductive WriteRefusal : CodecError → Prop where
  | header {id : FieldId} (h : id.fieldCode = 0) :
    WriteRefusal (.invalidFieldId (.zeroCode id))
  | wrapper {id : FieldId} (h : id.kindCode ≠ FieldKind.object.code) :
    WriteRefusal (.typeMismatch id (.kind .object))
  | payload {n : Nat} (h : Length.limit < n) :
    WriteRefusal (.overflow (.length n Length.limit))
  | step : WriteRefusal (.invalidAmount .emptyPathStep)

/-! ## Writes and their conditions -/

/-- A write succeeds exactly under a condition, and fails for one of the four causes
otherwise. -/
structure Settles (r : Except CodecError Bytes) (P : Prop) : Prop where
  ok_iff : (∃ u, r = .ok u) ↔ P
  refusal : ∀ e, r = .error e → WriteRefusal e

section

variable {r r' : Except CodecError Bytes} {P Q : Prop}

theorem settles_ok (u : Bytes) : Settles (.ok u) True :=
  ⟨iff_of_true ⟨u, rfl⟩ trivial, by simp⟩

theorem settles_error {e : CodecError} (h : WriteRefusal e) : Settles (.error e) False :=
  ⟨by simp, by rintro _ ⟨⟩; exact h⟩

theorem Settles.congr (h : Settles r P) (hiff : P ↔ Q) : Settles r Q :=
  ⟨h.ok_iff.trans hiff, h.refusal⟩

/-- Two writes succeed if each of them does, and the first refusal is that of both. -/
theorem Settles.joined (h : Settles r P) (h' : Settles r' Q) :
    Settles (joined r r') (P ∧ Q) := by
  constructor
  · rw [← h.ok_iff, ← h'.ok_iff]
    simp only [joined_eq_ok]
    constructor
    · rintro ⟨_, x, y, hx, hy, -⟩
      exact ⟨⟨x, hx⟩, y, hy⟩
    · rintro ⟨⟨x, hx⟩, y, hy⟩
      exact ⟨_, x, y, hx, hy, rfl⟩
  · intro e he
    cases r with
    | error e' =>
      cases he
      exact h.refusal _ rfl
    | ok x =>
      cases r' with
      | error e' =>
        cases he
        exact h'.refusal _ rfl
      | ok y => cases he

/-- What is put behind a write does not matter. -/
theorem Settles.followed (h : Settles r P) (u : Bytes) :
    Settles (XrpLedger.joined r (.ok u)) P :=
  (h.joined (settles_ok u)).congr (and_iff_left trivial)

end

/-- An identity with a kind has a header exactly if it has a code. -/
theorem FieldId.settles_encode {id : FieldId} (hkind : id.kindCode ≠ 0) :
    Settles id.encode (id.fieldCode ≠ 0) := by
  cases hencode : id.encode with
  | error e =>
    obtain ⟨hzero, rfl⟩ := encode_eq_error.mp hencode
    have hcode : id.fieldCode = 0 := hzero.resolve_left hkind
    exact (settles_error (.header hcode)).congr
      (iff_of_false not_false (not_not.mpr hcode))
  | ok u =>
    refine (settles_ok u).congr (iff_of_true trivial fun hzero => ?_)
    rw [encode_eq_error.mpr ⟨.inr hzero, rfl⟩] at hencode
    cases hencode

theorem FieldKind.code_ne_zero (kind : FieldKind) : kind.code ≠ 0 := by
  cases kind <;> decide

/-- A field that follows and fits is only refused for its header. -/
theorem FieldId.headerFor_eq {previous : Option FieldId} {id : FieldId} {v : Value}
    (hfits : v.Fits id) (hfollows : id.Follows previous) :
    headerFor previous id v = id.encode := by
  rw [headerFor, if_pos hfits, headerAfter, checkAfter_eq_ok.mpr hfollows]

/-! ## Scalars -/

theorem settles_payload (bs : Bytes) :
    Settles (payload bs).toExcept (bs.length ≤ Length.limit) := by
  rw [toExcept_payload, Length.encode_eq]
  split
  · next hlimit => exact ((settles_ok _).followed bs).congr (iff_of_true trivial hlimit)
  · next hlimit =>
    have htoo : Length.limit < bs.length := Nat.lt_of_not_le hlimit
    exact ((settles_error (.payload htoo)).followed bs).congr
      (iff_of_false not_false hlimit)

theorem PathStep.bits_eq_zero_iff {s : PathStep} : s.bits = 0 ↔ ¬ s.HasMember := by
  unfold bits HasMember
  cases s.account.isSome <;> cases s.currency.isSome <;> cases s.issuer.isSome <;> decide

theorem PathStep.settles_output (s : PathStep) :
    Settles s.output.toExcept s.HasMember := by
  unfold output
  split
  · next hbits =>
    exact (settles_error .step).congr (iff_of_false not_false (bits_eq_zero_iff.mp hbits))
  · next hbits =>
    exact (settles_ok _).congr (iff_of_true trivial
      (not_not.mp (mt bits_eq_zero_iff.mpr hbits)))

namespace PathSet

theorem settles_pathOutput (p : Path) :
    Settles (pathOutput p).toExcept (∀ s ∈ p, s.HasMember) := by
  induction p with
  | nil => exact (settles_ok []).congr (by simp)
  | cons s p ih =>
    rw [pathOutput, Output.toExcept_append]
    exact (s.settles_output.joined ih).congr List.forall_mem_cons.symm

theorem settles_output (paths : List Path) :
    Settles (output paths).toExcept (∀ p ∈ paths, ∀ s ∈ p, s.HasMember) := by
  cases paths with
  | nil => exact (settles_ok [terminator]).congr (by simp)
  | cons p rest =>
    induction rest generalizing p with
    | nil =>
      rw [output, Output.toExcept_append]
      exact ((settles_pathOutput p).followed [terminator]).congr (by simp)
    | cons q rest ih =>
      rw [output, Output.toExcept_append, Output.toExcept_append]
      have hrest := (settles_ok [separator]).joined (ih q)
      refine ((settles_pathOutput p).joined hrest).congr ?_
      simp only [true_and, List.forall_mem_cons]

end PathSet

theorem length_flatMap_hashes (hashes : List Hash256) :
    (hashes.flatMap FixedBytes.toList).length = hashes.length * 32 := by
  induction hashes with
  | nil => rfl
  | cons h hashes ih =>
    rw [List.flatMap_cons, List.length_append, ih, h.length_eq, List.length_cons]
    omega

theorem Scalar.settles_output (s : Scalar) : Settles s.output.toExcept s.Writable := by
  cases s with
  | blob bs => exact settles_payload bs
  | vector256 hashes =>
    have hlimit : hashes.length * 32 ≤ Length.limit ↔ hashes.length ≤ maxHashes := by
      unfold Length.limit maxHashes
      omega
    refine (settles_payload (hashes.flatMap FixedBytes.toList)).congr ?_
    rw [length_flatMap_hashes, hlimit]
    rfl
  | accountId a =>
    refine (settles_payload a.toBytes).congr (iff_of_true ?_ trivial)
    rw [a.length_toBytes]
    decide
  | pathSet paths => exact PathSet.settles_output paths
  | _ => exact settles_ok _

/-! ## Trees -/

mutual

theorem Value.settles_output : ∀ {v : Value}, v.InOrder →
    v.Each (fun id w => w.Fits id) (fun _ => True) → Settles v.output.toExcept v.Writable
  | .scalar s, _, _ => s.settles_output.congr (and_iff_left trivial).symm
  | .object o, horder, hfits => by
    rw [Value.toExcept_output_object]
    exact ((Object.settles_encodeAfter horder hfits).followed _).congr
      (and_iff_right trivial).symm
  | .array es, horder, hfits =>
    (Elements.settles_output horder hfits).congr (and_iff_right trivial).symm

/-- The fields of an object that is in order, with values that fit, are written exactly if
they can be. -/
theorem Object.settles_encodeAfter : ∀ {previous : Option FieldId} {o : Object},
    Object.InOrder previous o → Object.Each (fun id w => w.Fits id) (fun _ => True) o →
      Settles (Object.encodeAfter previous o) (Object.Writable o)
  | _, [], _, _ => settles_ok []
  | previous, (id, v) :: rest, ⟨hfollows, horder, horder'⟩, ⟨hfit, hfits, hfits'⟩ => by
    -- the kind of the value gives the identity its kind, so only the code can be missing
    have hkind : id.kindCode ≠ 0 := by
      rw [← hfit]
      exact v.kind.code_ne_zero
    have hvalue := Value.settles_output horder hfits
    have hrest := Object.settles_encodeAfter horder' hfits'
    rw [Object.encodeAfter_cons, FieldId.headerFor_eq hfit hfollows]
    exact ((FieldId.settles_encode hkind).joined (hvalue.joined hrest)).congr
      Object.writable_cons.symm

theorem Elements.settles_output : ∀ {es : Elements}, Elements.InOrder es →
    Elements.Each (fun id w => w.Fits id) (fun _ => True) es →
      Settles (Elements.output es).toExcept (Elements.Writable es)
  | [], _, _ => settles_ok [arrayEndOctet]
  | (id, o) :: rest, ⟨horder, horder'⟩, ⟨_, hfits, hfits'⟩ => by
    by_cases hwrapper : id.kindCode = FieldId.objectEnd.kindCode
    · have hkind : id.kindCode ≠ 0 := by
        rw [hwrapper]
        decide
      have hobject := (Object.settles_encodeAfter horder hfits).followed [objectEndOctet]
      have hrest := Elements.settles_output horder' hfits'
      rw [Elements.toExcept_output_cons hwrapper, Value.toExcept_output_object]
      refine ((FieldId.settles_encode hkind).joined (hobject.joined hrest)).congr ?_
      rw [Elements.writable_cons, FieldId.WritableWrapper]
      exact and_congr_left' (and_iff_right hwrapper).symm
    · rw [Elements.output, if_neg hwrapper]
      refine (settles_error (.wrapper hwrapper)).congr
        (iff_of_false not_false fun h => ?_)
      exact hwrapper h.1.1

end

namespace Object

/-- An object in order, with values that fit their fields, at every level. -/
structure WellFormed (o : Object) : Prop where
  inOrder : InOrder none o
  fits : Each (fun id v => v.Fits id) (fun _ => True) o

variable {o : Object}

/-- Whether such an object is written is a matter of its identities and its scalars. -/
theorem WellFormed.settles_encode (h : WellFormed o) : Settles (encode o) (Writable o) :=
  settles_encodeAfter h.inOrder h.fits

end Object

/-! ## Objects that are built -/

/-- The objects directly inside a value. -/
def Value.objects : Value → List Object
  | .scalar _ => []
  | .object o => [o]
  | .array es => es.map Prod.snd

/-- The objects that can be had: fields are set by identity or by name and removed, with
values whose inner objects were had before, and objects are read from JSON and from
octets. -/
inductive Object.Built : Object → Prop where
  | empty : Built []
  | put {o o' : Object} {id : FieldId} {v : Value} {old : Option Value} (ho : Built o)
    (hv : ∀ p ∈ v.objects, Built p) (h : put o id v = .ok (old, o')) : Built o'
  | set {o o' : Object} {name : String} {v : Value} (ho : Built o)
    (hv : ∀ p ∈ v.objects, Built p) (h : setNamed name v o = .ok o') : Built o'
  | remove {o : Object} (ho : Built o) (name : String) : Built (eraseNamed o name).2
  | ofJson {j : Json} {o : Object} (h : Object.ofJson j = .ok o) : Built o
  | decode {bs : Bytes} {o : Object} (h : decode bs = .ok o) : Built o

mutual

theorem Value.fits_of_spells : ∀ {v : Value} {u : Bytes}, v.Spells u →
    v.Each (fun id w => w.Fits id) fun _ => True
  | .scalar _, _, _ => trivial
  | .object _, _, ⟨_, h, _⟩ => Object.fits_of_spells h
  | .array _, _, ⟨_, h, _⟩ => Elements.fits_of_spells h

/-- The values of an object that is spelled fit their fields. -/
theorem Object.fits_of_spells : ∀ {o : Object} {u : Bytes}, Object.Spells o u →
    Object.Each (fun id w => w.Fits id) (fun _ => True) o
  | [], _, _ => trivial
  | (_, _) :: _, _, ⟨_, _, _, _, hfits, hv, hrest, _⟩ =>
    ⟨hfits, Value.fits_of_spells hv, Object.fits_of_spells hrest⟩

theorem Elements.fits_of_spells : ∀ {es : Elements} {u : Bytes}, Elements.Spells es u →
    Elements.Each (fun id w => w.Fits id) (fun _ => True) es
  | [], _, _ => trivial
  | (_, _) :: _, _, ⟨_, _, _, _, _, ho, hrest, _⟩ =>
    ⟨trivial, Object.fits_of_spells ho, Elements.fits_of_spells hrest⟩

end

namespace Object

variable {o o' : Object} {id : FieldId} {v : Value}

theorem wellFormed_ofJson {j : Json} (h : ofJson j = .ok o) : WellFormed o := by
  have hhave : JsonHave (fun id v => v.Fits id) fun _ => True :=
    ⟨fun _ hfits _ => hfits, fun _ hfits => hfits, fun _ hfits => hfits,
      fun _ _ => trivial⟩
  obtain ⟨horder, hfits⟩ := built_ofJson hhave h
  exact ⟨horder, hfits⟩

theorem wellFormed_decode {bs : Bytes} (h : decode bs = .ok o) : WellFormed o := by
  have hread := decode_eq_ok.mp h
  exact ⟨hread.inOrder, fits_of_spells hread.spells⟩

/-- A value has what its inner objects have. -/
theorem wellFormed_objects (hv : ∀ p ∈ v.objects, WellFormed p) :
    v.InOrder ∧ v.Each (fun id w => w.Fits id) fun _ => True := by
  cases v with
  | scalar s => exact ⟨trivial, trivial⟩
  | object p =>
    have hp := hv p (List.mem_singleton_self p)
    exact ⟨hp.inOrder, hp.fits⟩
  | array es =>
    show Elements.InOrder es ∧ Elements.Each _ _ es
    induction es with
    | nil => exact ⟨trivial, trivial⟩
    | cons e rest ih =>
      obtain ⟨i, p⟩ := e
      have hp := hv p (by simp [Value.objects])
      obtain ⟨horder, hfits⟩ := ih fun q hq => hv q (List.mem_cons_of_mem _ hq)
      exact ⟨⟨hp.inOrder, horder⟩, trivial, hp.fits, hfits⟩

theorem WellFormed.put {old : Option Value} (ho : WellFormed o)
    (hv : ∀ p ∈ v.objects, WellFormed p) (h : put o id v = .ok (old, o')) :
    WellFormed o' := by
  obtain ⟨horder, hfits⟩ := wellFormed_objects hv
  obtain ⟨hfit, -, rfl⟩ := put_eq_ok.mp h
  exact ⟨inOrder_insert ho.inOrder (FieldId.follows_none id) horder,
    each_insert ho.fits hfit hfits⟩

theorem WellFormed.set {name : String} (ho : WellFormed o)
    (hv : ∀ p ∈ v.objects, WellFormed p) (h : setNamed name v o = .ok o') :
    WellFormed o' := by
  unfold setNamed putNamed at h
  split at h
  · next hput =>
    cases h
    split at hput
    · exact ho.put hv hput
    · cases hput
  · cases h

/-- Removing fields disturbs neither order nor kinds. -/
theorem WellFormed.sublist (ho : WellFormed o) (h : o'.Sublist o) : WellFormed o' := by
  obtain ⟨hfollows, hascending, hinner⟩ := inOrder_iff.mp ho.inOrder
  refine ⟨inOrder_iff.mpr ⟨?_, hascending.sublist h, ?_⟩, each_iff.mpr ?_⟩
  · exact fun field hfield => hfollows field (h.subset hfield)
  · exact fun field hfield => hinner field (h.subset hfield)
  · exact fun field hfield => each_iff.mp ho.fits field (h.subset hfield)

theorem WellFormed.remove (ho : WellFormed o) (name : String) :
    WellFormed (eraseNamed o name).2 := by
  unfold eraseNamed
  split
  · exact ho.sublist (erase_sublist _ o)
  · exact ho

/-- However an object is built, it is in order, and its values fit their fields. -/
theorem Built.wellFormed (h : Built o) : WellFormed o := by
  induction h with
  | empty => exact ⟨trivial, trivial⟩
  | put _ _ h ih ihv => exact ih.put ihv h
  | set _ _ h ih ihv => exact ih.set ihv h
  | remove _ name ih => exact ih.remove name
  | ofJson h => exact wellFormed_ofJson h
  | decode h => exact wellFormed_decode h

theorem Built.singleton (hv : ∀ p ∈ v.objects, Built p) (hfits : v.Fits id) :
    Built [(id, v)] :=
  .put .empty hv (put_eq_ok.mpr ⟨hfits, rfl, rfl⟩)

/-- An object that was built is written exactly if, at every level, all fields have codes,
all elements are wrapped as objects by identities with codes, no payload is too long and
no path step is without members. It is refused for these four causes only, and never for
the order of its fields. -/
theorem encode_built (h : Built o) :
    ((∃ bs, encode o = .ok bs) ↔ Writable o) ∧
    (∀ e, encode o = .error e → WriteRefusal e) ∧
      ∀ p id, encode o ≠ .error (.fieldOrder p id) := by
  obtain ⟨hok, hrefusal⟩ := h.wellFormed.settles_encode
  refine ⟨hok, hrefusal, fun p id horder => ?_⟩
  cases hrefusal _ horder

/-- A list with one memo. -/
def oneMemo : Object :=
  [(Field.memos, .array [(Field.memo, [(Field.memoData, .scalar (.blob [0x48, 0x69]))])])]

/-- A memo that is put into its wrapper, and that into its list, is written. -/
theorem encode_built_oneMemo : Built oneMemo ∧ ∃ bs, encode oneMemo = .ok bs := by
  have hmemo : Built [(Field.memoData, .scalar (.blob [0x48, 0x69]))] :=
    .singleton (by simp [Value.objects]) rfl
  have hbuilt : Built oneMemo := .singleton (by simpa [Value.objects] using hmemo) rfl
  refine ⟨hbuilt, (encode_built hbuilt).1.mpr ?_⟩
  refine ⟨⟨by decide, trivial⟩,
    ⟨⟨rfl, by decide⟩, ⟨⟨by decide, ?_⟩, trivial, trivial⟩, trivial⟩, trivial⟩
  show [0x48, 0x69].length ≤ Length.limit
  decide

end Object

end XrpLedger
