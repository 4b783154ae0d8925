import XrpLedger.Error

/-!
# Payload lengths

Payloads of variable size follow their length, which takes one to three octets. The first
octet says how many, and the ranges of the three sizes follow each other without overlap.

- `Length.encode`, `Length.decode`: from a length to its octets and back.
-/

namespace XrpLedger.Length

/-- The greatest length of one octet. -/
def maxSingle : Nat := 192

/-- The greatest length of two octets. -/
def maxDouble : Nat := 12480

/-- The greatest length. -/
def limit : Nat := 918744

/-- The octets of a length. -/
def encode (n : Nat) : Except CodecError Bytes :=
  if n ≤ maxSingle then .ok [UInt8.ofNat n]
  else if n ≤ maxDouble then
    let m := n - (maxSingle + 1)
    .ok [UInt8.ofNat (193 + m / 256), UInt8.ofNat (m % 256)]
  else if n ≤ limit then
    let m := n - (maxDouble + 1)
    .ok [UInt8.ofNat (241 + m / 65536), UInt8.ofNat (m / 256 % 256),
      UInt8.ofNat (m % 256)]
  else .error (.overflow (.length n limit))

/-- The length in front of a byte string, and the number of its octets. -/
def decode : Bytes → Except CodecError (Nat × Nat)
  | [] => .error (.unexpectedEof 1 0)
  | first :: rest =>
    let b := first.toNat
    if b ≤ 192 then .ok (b, 1)
    else if b ≤ 240 then
      match rest with
      | c :: _ => .ok (193 + (b - 193) * 256 + c.toNat, 2)
      | [] => .error (.unexpectedEof 2 1)
    else if b ≤ 254 then
      match rest with
      | c :: d :: _ => .ok (12481 + (b - 241) * 65536 + c.toNat * 256 + d.toNat, 3)
      | [_] => .error (.unexpectedEof 3 2)
      | [] => .error (.unexpectedEof 2 1)
    else .error (.overflow .lengthOctet)

end XrpLedger.Length
