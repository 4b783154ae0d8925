import XrpLedger.Bytes
import XrpLedger.Text.Number
import XrpLedger.Text.Positional
import XrpLedger.Text.Quoted

/-!
# Hexadecimal text

Two digits an octet: written in upper case, read in either case.

- `encode`, `decode`: octets to text and back.
- `encodeUtf8`, `decodeUtf8`: the same with the text as UTF-8 octets.
- `encodeInto`, `decodeInto`: the same into a destination of given size, with a report of
  how far the call got.
- `word`, `natural`: a number in upper-case digits, padded or not.
-/

namespace XrpLedger.Text.Hex

/-- Why a text is no hexadecimal spelling of octets. -/
inductive Fault where
  | oddLength
  | invalidDigit (octet : UInt8) (position : Nat)
  deriving DecidableEq

/-- The wording of a hexadecimal fault. The offending octet is shown as the character of
its code. -/
def Fault.message : Fault → String
  | .oddLength => "Odd number of digits"
  | .invalidDigit octet position =>
    "Invalid character " ++ quoted (Char.ofNat octet.toNat) ++ " at position " ++
      toString position

/-- The upper-case digit of a value below sixteen, as an octet. -/
def digitOctet (d : Nat) : UInt8 :=
  (upperHexDigit d).toNat.toUInt8

/-- The two digits of an octet. -/
def digitsOf (b : UInt8) : Bytes :=
  [digitOctet (b.toNat / 16), digitOctet (b.toNat % 16)]

/-- Upper-case hexadecimal text as UTF-8 octets. -/
def encodeUtf8 (bs : Bytes) : Bytes :=
  bs.flatMap digitsOf

/-- Upper-case hexadecimal text. -/
def encode (bs : Bytes) : String :=
  String.ofList ((encodeUtf8 bs).map fun b => Char.ofNat b.toNat)

/-- The value of a digit given as an octet. -/
def octetValue? (b : UInt8) : Option Nat :=
  digitValue? (Char.ofNat b.toNat)

/-- Reads digit pairs from the left. The result holds the octets of the pairs before the
first bad one, and the fault of that pair if there is one. -/
def decodePairs : (position : Nat) → Bytes → Bytes × Option Fault
  | position, hi :: lo :: rest =>
    match octetValue? hi, octetValue? lo with
    | some h, some l =>
      match decodePairs (position + 2) rest with
      | (bs, fault) => (UInt8.ofNat (h * 16 + l) :: bs, fault)
    | none, _ => ([], some (.invalidDigit hi position))
    | some _, none => ([], some (.invalidDigit lo (position + 1)))
  | _, _ => ([], none)

/-- Reads hexadecimal text given as UTF-8 octets. An odd count is refused before any digit
is. -/
def decodeUtf8 (text : Bytes) : Except Fault Bytes :=
  if text.length % 2 = 1 then .error .oddLength
  else
    match decodePairs 0 text with
    | (bs, none) => .ok bs
    | (_, some fault) => .error fault

/-- Reads hexadecimal text, digits in either case. -/
def decode (text : String) : Except Fault Bytes :=
  decodeUtf8 (Bytes.ofText text)

/-! ## Numbers -/

/-- A number in upper-case digits, without leading zeros. -/
def natural (n : Nat) : String :=
  if n = 0 then "0" else String.ofList ((Positional.digits 16 n).map upperHexDigit)

/-- The low `width` octets of a number, two digits each. -/
def word (width n : Nat) : String :=
  encode (Bytes.ofNat width n)

/-! ## Fixed destinations -/

/-- The number of digits that `count` octets take. -/
def encodedLength (count : Nat) : Nat :=
  count * 2

/-- The number of octets that `count` digits spell, if the count is even. -/
def decodedLength? (count : Nat) : Option Nat :=
  if count % 2 = 0 then some (count / 2) else none

/-- The outcome of a call with a fixed destination. -/
inductive Status where
  | done
  | invalidData
  | destinationTooSmall
  deriving DecidableEq

/-- An outcome, with the octets consumed from the source and written to
the destination. -/
structure Progress where
  status : Status
  consumed : Nat
  written : Nat
  deriving DecidableEq

/-- Replaces the first octets of `dst`. -/
def overwrite (dst front : Bytes) : Bytes :=
  front ++ dst.drop front.length

/-- Writes the hexadecimal text of `src` over the front of `dst`, if it fits. -/
def encodeInto (src dst : Bytes) : Progress × Bytes :=
  let needed := encodedLength src.length
  if dst.length < needed then (⟨.destinationTooSmall, 0, 0⟩, dst)
  else (⟨.done, src.length, needed⟩, overwrite dst (encodeUtf8 src))

/-- Writes the octets that the text `src` spells over the front of `dst`, if they fit. A
bad digit stops the call; the octets of the pairs before it have been written by then. -/
def decodeInto (src dst : Bytes) : Progress × Bytes :=
  match decodedLength? src.length with
  | none => (⟨.invalidData, 0, 0⟩, dst)
  | some needed =>
    if dst.length < needed then (⟨.destinationTooSmall, 0, 0⟩, dst)
    else
      match decodePairs 0 src with
      | (bs, none) => (⟨.done, src.length, needed⟩, overwrite dst bs)
      | (bs, some _) => (⟨.invalidData, 0, 0⟩, overwrite dst bs)

end XrpLedger.Text.Hex
