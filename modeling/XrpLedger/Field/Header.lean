import XrpLedger.Error

/-!
# Field headers

A serialized field starts with its identity. Each of the two codes takes half an octet if
it is below sixteen and an octet of its own otherwise, so a header has one to three octets
and each identity has one header.

- `FieldId.encode`, `FieldId.decode`: from identity to header and back.
- `FieldId.checkAfter`: the canonical order of the fields in a run.
-/

namespace XrpLedger.FieldId

/-- The header of an identity. A code of zero has none. -/
def encode (id : FieldId) : Except CodecError Bytes :=
  if id.kindCode = 0 ∨ id.fieldCode = 0 then .error (.invalidFieldId (.zeroCode id))
  else if id.kindCode < 16 then
    if id.fieldCode < 16 then .ok [id.kindCode * 16 + id.fieldCode]
    else .ok [id.kindCode * 16, id.fieldCode]
  else
    if id.fieldCode < 16 then .ok [id.fieldCode, id.kindCode]
    else .ok [0, id.kindCode, id.fieldCode]

/-- The identity in front of a byte string, and the number of octets of its header. A code
with an octet of its own must be at least sixteen. -/
def decode : Bytes → Except CodecError (FieldId × Nat)
  | [] => .error (.unexpectedEof 1 0)
  | first :: rest =>
    let kindCode := first / 16
    let fieldCode := first % 16
    if kindCode = 0 then
      if fieldCode = 0 then
        match rest with
        | k :: f :: _ =>
          if 16 ≤ k ∧ 16 ≤ f then .ok (⟨k, f⟩, 3)
          else .error (.invalidFieldId (.spelling [first, k, f]))
        | _ => .error (.unexpectedEof 3 (1 + rest.length))
      else
        match rest with
        | k :: _ =>
          if 16 ≤ k then .ok (⟨k, fieldCode⟩, 2)
          else .error (.invalidFieldId (.spelling [first, k]))
        | [] => .error (.unexpectedEof 2 1)
    else
      if fieldCode = 0 then
        match rest with
        | f :: _ =>
          if 16 ≤ f then .ok (⟨kindCode, f⟩, 2)
          else .error (.invalidFieldId (.spelling [first, f]))
        | [] => .error (.unexpectedEof 2 1)
      else .ok (⟨kindCode, fieldCode⟩, 1)

/-- Refuses a field that does not come after the previous one of its run. -/
def checkAfter (previous : Option FieldId) (id : FieldId) : Except CodecError Unit :=
  match previous with
  | none => .ok ()
  | some p => if p < id then .ok () else .error (.fieldOrder p id)

end XrpLedger.FieldId
