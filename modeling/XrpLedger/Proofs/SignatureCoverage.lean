import XrpLedger.Proofs.ObjectMap
import XrpLedger.Signing

/-!
# What a signature covers

A signature covers an object but for the fields that hold signatures, and only those of
the outermost object are left out. What it covers tells everything else.

- `Signing.signatureNames`, `Signing.withoutSignatures`: the fields that are left out.
- `Signing.signingPart_eq`: the signing part is the object without these fields.
- `Signing.signingData_eq_iff`: two objects are covered alike exactly if they differ in
  these fields only.
-/

namespace XrpLedger

namespace Signing

/-- The names of the fields that hold signatures. -/
def signatureNames : List String :=
  ["TxnSignature", "Signature", "MasterSignature", "Signers"]

/-- The object without the fields that have `signatureNames`. Those of inner
objects stay. -/
def withoutSignatures (o : Object) : Object :=
  signatureNames.foldl (fun o name => (Object.eraseNamed o name).2) o

end Signing

open Signing

/-! ## The fields that are left out -/

namespace FieldId

/-- All known fields are covered by `isSigningField` but those with the
`signatureNames`. -/
theorem isSigningField_iff (id : FieldId) :
    id.isSigningField = true ↔ ∀ name ∈ signatureNames, id.name? ≠ some name := by
  -- the column of the table says what the names say
  have hrow : ∀ info ∈ FieldInfo.table,
      info.isSigningField = !signatureNames.contains info.name := by
    decide +kernel
  unfold isSigningField name?
  cases hinfo : FieldInfo.byId? id with
  | none => simp
  | some info =>
    have hmem := List.mem_of_find?_eq_some hinfo
    simp only [hrow info hmem, Option.map_some, ne_eq, Option.some.injEq,
      Bool.not_eq_true', List.contains_eq_mem, decide_eq_false_iff_not]
    constructor
    · rintro h name hname rfl
      exact h hname
    · intro h hname
      exact h _ hname rfl

/-- The fields that `isSigningField` leaves out are those that the
`signatureNames` name. -/
theorem isSigningField_eq (id : FieldId) :
    id.isSigningField = !(signatureNames.filterMap ofName?).contains id := by
  have hrow : ∀ info ∈ FieldInfo.table,
      info.isSigningField = !(signatureNames.filterMap ofName?).contains info.id := by
    decide +kernel
  -- the four names are those of known fields, so no unknown field is left out
  have hknown : ∀ id ∈ signatureNames.filterMap ofName?, (FieldInfo.byId? id).isSome := by
    decide +kernel
  unfold isSigningField
  cases hinfo : FieldInfo.byId? id with
  | none =>
    have hid : id ∉ signatureNames.filterMap ofName? := by
      intro hid
      have := hknown id hid
      rw [hinfo] at this
      cases this
    simp [hid]
  | some info =>
    have hfound := List.find?_some hinfo
    rw [beq_iff_eq] at hfound
    rw [← hfound]
    exact hrow info (List.mem_of_find?_eq_some hinfo)

end FieldId

namespace Object

/-- From an object in order, `eraseNamed` removes all fields with the given names. -/
theorem foldl_eraseNamed (names : List String) {o : Object} (h : InOrder none o) :
    names.foldl (fun o name => (eraseNamed o name).2) o =
      o.filter fun field => !(names.filterMap FieldId.ofName?).contains field.1 := by
  induction names generalizing o with
  | nil => simp
  | cons name rest ih =>
    rw [List.foldl_cons]
    -- a name of no field removes nothing
    cases hname : FieldId.ofName? name with
    | none =>
      have hsame : (eraseNamed o name).2 = o := by rw [eraseNamed, hname]
      rw [hsame, ih h, List.filterMap_cons_none hname]
    | some id =>
      have herase : (eraseNamed o name).2 = o.filter fun field => field.1 != id := by
        rw [eraseNamed, hname]
        exact h.ascending.erase_eq_filter id
      rw [herase, ih (inOrder_filter _ h), List.filter_filter,
        List.filterMap_cons_some hname]
      congr 1
      funext field
      rw [List.contains_cons, Bool.not_or, Bool.and_comm]
      rfl

end Object

namespace Signing

variable {o o' : Object} {bs bs' data data' : Bytes}

/-- What is signed is the object `withoutSignatures`. -/
theorem signingPart_eq (h : Object.InOrder none o) :
    Object.signingPart o = withoutSignatures o := by
  rw [withoutSignatures, Object.foldl_eraseNamed signatureNames h, Object.signingPart]
  congr 1
  funext field
  exact field.1.isSigningField_eq

/-- The data for signing is the `signingMarker` in front of what `encode` makes of the
`signingPart`. -/
theorem signingData_eq_ok :
    signingData o = .ok data ↔ ∃ w, Object.encode (Object.signingPart o) = .ok w ∧
      data = signingMarker ++ w := by
  unfold signingData Object.encodeSigning
  cases Object.encode (Object.signingPart o) with
  | error e => simp
  | ok w => simp [eq_comm]

/-! ## What the octets tell -/

/-- Signatures of two transactions that were read cover the same octets `signingData` if
and only if the transactions are equal `withoutSignatures`, so without the four fields
that hold signatures. Every field of another name or of none is among what is compared,
with all that is inside it. -/
theorem signingData_eq_iff (h : Object.decode bs = .ok o)
    (h' : Object.decode bs' = .ok o')
    (hdata : signingData o = .ok data) (hdata' : signingData o' = .ok data') :
    (data = data' ↔ withoutSignatures o = withoutSignatures o') ∧
      ∀ field, field ∈ withoutSignatures o ↔
        field ∈ o ∧ ∀ name ∈ signatureNames, field.1.name? ≠ some name := by
  have ho := Object.canonical_of_decode h
  have ho' := Object.canonical_of_decode h'
  rw [← signingPart_eq ho.inOrder, ← signingPart_eq ho'.inOrder]
  constructor
  · obtain ⟨w, hw, rfl⟩ := signingData_eq_ok.mp hdata
    obtain ⟨w', hw', rfl⟩ := signingData_eq_ok.mp hdata'
    constructor
    · -- both signing parts can be read, and the octets are read as only one of them
      intro heq
      have hww : w = w' := List.append_cancel_left heq
      subst hww
      exact (ho.filter _).encode_inj (ho'.filter _) hw hw'
    · intro heq
      rw [heq, hw'] at hw
      cases hw
      rfl
  · intro field
    rw [Object.signingPart, List.mem_filter, FieldId.isSigningField_iff]

/-- A transaction with the given signature, and a signature of its own inside an inner
object. -/
def cosigned (signature : UInt8) : Object :=
  [(Field.transactionType, .scalar (.uint16 0)),
    (Field.txnSignature, .scalar (.blob [signature])),
    (Field.memo, .object [(Field.txnSignature, .scalar (.blob [0xAB]))])]

/-- Two transactions that are `cosigned` differently are covered alike, and the signature
inside the inner object is covered. -/
theorem signingData_eq_iff_cosigned :
    ∃ data, signingData (cosigned 0xAB) = .ok data ∧
    signingData (cosigned 0xCD) = .ok data ∧
      (Field.memo, .object [(Field.txnSignature, .scalar (.blob [0xAB]))]) ∈
        withoutSignatures (cosigned 0xAB) := by
  have h : Object.decode [0x12, 0, 0, 0x74, 1, 0xAB, 0xEA, 0x74, 1, 0xAB, 0xE1] =
      .ok (cosigned 0xAB) := rfl
  have h' : Object.decode [0x12, 0, 0, 0x74, 1, 0xCD, 0xEA, 0x74, 1, 0xAB, 0xE1] =
      .ok (cosigned 0xCD) := rfl
  obtain ⟨data, hdata⟩ : ∃ data, signingData (cosigned 0xAB) = .ok data := ⟨_, rfl⟩
  obtain ⟨data', hdata'⟩ : ∃ data, signingData (cosigned 0xCD) = .ok data := ⟨_, rfl⟩
  obtain ⟨hcovered, hmem⟩ := signingData_eq_iff h h' hdata hdata'
  have heq : data = data' := hcovered.mpr (by decide)
  subst heq
  exact ⟨data, hdata, hdata', (hmem _).mpr ⟨by decide, by decide⟩⟩

end Signing

end XrpLedger
