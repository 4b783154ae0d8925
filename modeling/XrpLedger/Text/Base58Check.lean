import XrpLedger.Error
import XrpLedger.Hash.Composite

/-!
# Guarded base-58 text

Addresses, seeds and public keys are shown in base 58 behind version octets and in front
of a checksum. The version octets fix the first letters of the text.

- `encode`, `decode`: octets to guarded text and back.
- `decodeInto`: decoding into a destination of given size.
- `encodeVersioned`, `decodeVersioned`: a payload behind its version octets.
-/

namespace XrpLedger.Text.Base58Check

/-- The number of octets in a checksum. -/
def checksumLength : Nat := 4

/-- The base-58 text of the data and its checksum. -/
def encode (data : Bytes) : String :=
  Base58.encode (data ++ Hash.checksum data)

/-- The data of a guarded text whose checksum is right. -/
def decode (text : String) : Except CodecError Bytes :=
  match Base58.decode text with
  | .error fault => .error (.invalidBase58 fault)
  | .ok bs =>
    if bs.length < checksumLength then .error (.invalidLength checksumLength bs.length)
    else
      let data := bs.take (bs.length - checksumLength)
      if Hash.checksum data = bs.drop (bs.length - checksumLength) then .ok data
      else .error .checksumMismatch

/-- Writes the data of a guarded text over the front of `dst`, if it fits, and counts the
octets written. -/
def decodeInto (text : String) (dst : Bytes) : Except CodecError (Nat × Bytes) :=
  match decode text with
  | .error e => .error e
  | .ok data =>
    if dst.length < data.length then .error (.destinationTooSmall data.length dst.length)
    else .ok (data.length, Hex.overwrite dst data)

/-- The guarded text of a payload behind its version octets. -/
def encodeVersioned (version payload : Bytes) : String :=
  encode (version ++ payload)

/-- The payload of a guarded text that has the given version octets and payload length. -/
def decodeVersioned (text : String) (version : Bytes) (payloadLength : Nat) :
    Except CodecError Bytes :=
  match decode text with
  | .error e => .error e
  | .ok data =>
    if data.take version.length = version then
      let payload := data.drop version.length
      if payload.length = payloadLength then .ok payload
      else .error (.invalidLength payloadLength payload.length)
    else .error (.invalidVersion (data.take version.length))

end XrpLedger.Text.Base58Check
