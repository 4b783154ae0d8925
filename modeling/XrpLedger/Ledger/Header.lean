import XrpLedger.Hash.Sha512
import XrpLedger.OpaqueHash

/-!
# Ledger headers

A ledger is described by a header of 118 octets, which hold nine numbers and hashes, each
at an offset of its own.

- `LedgerHeader`: a header, with `toBytes` and `decode`.
- `LedgerHeader.hash`: the hash that identifies the ledger.
-/

namespace XrpLedger

/-- The header of a ledger. Times are seconds since the start of the year 2000. -/
structure LedgerHeader where
  sequence : UInt32
  /-- The drops in existence. -/
  totalCoins : UInt64
  parentHash : Hash256
  transactionHash : Hash256
  accountHash : Hash256
  parentCloseTime : UInt32
  closeTime : UInt32
  closeTimeResolution : UInt8
  closeFlags : UInt8
  deriving DecidableEq

namespace LedgerHeader

/-- The number of octets of a header. -/
def size : Nat := 118

/-- Stands in front of what identifies a ledger: `LWR` and a zero. -/
def marker : Bytes := [0x4C, 0x57, 0x52, 0x00]

/-- The seconds between the start of 1970 and that of 2000. -/
def epochOffset : Nat := 946684800

/-! ## Layout -/

def sequenceOffset : Nat := 0
def totalCoinsOffset : Nat := 4
def parentHashOffset : Nat := 12
def transactionHashOffset : Nat := 44
def accountHashOffset : Nat := 76
def parentCloseTimeOffset : Nat := 108
def closeTimeOffset : Nat := 112
def closeTimeResolutionOffset : Nat := 116
def closeFlagsOffset : Nat := 117

/-- The octets from an offset on, so many of them. -/
def slice (bs : Bytes) (offset count : Nat) : Bytes :=
  (bs.drop offset).take count

/-- The string with the octets from an offset on replaced. -/
def place (bs : Bytes) (offset : Nat) (part : Bytes) : Bytes :=
  bs.take offset ++ (part ++ bs.drop (offset + part.length))

/-! ## Writing -/

/-- The fields of a header, each with the offset at which it is written. -/
def parts (h : LedgerHeader) : List (Nat × Bytes) :=
  [(sequenceOffset, Bytes.ofNat 4 h.sequence.toNat),
    (totalCoinsOffset, Bytes.ofNat 8 h.totalCoins.toNat),
    (parentHashOffset, h.parentHash.toList),
    (transactionHashOffset, h.transactionHash.toList),
    (accountHashOffset, h.accountHash.toList),
    (parentCloseTimeOffset, Bytes.ofNat 4 h.parentCloseTime.toNat),
    (closeTimeOffset, Bytes.ofNat 4 h.closeTime.toNat),
    (closeTimeResolutionOffset, Bytes.ofNat 1 h.closeTimeResolution.toNat),
    (closeFlagsOffset, Bytes.ofNat 1 h.closeFlags.toNat)]

/-- The string with parts placed into it, one after the other. -/
def placeAll (bs : Bytes) (parts : List (Nat × Bytes)) : Bytes :=
  parts.foldl (fun bs part => place bs part.1 part.2) bs

/-- The octets of a header. -/
def toBytes (h : LedgerHeader) : Bytes :=
  placeAll (List.replicate size 0) h.parts

/-! ## Reading -/

/-- The number at an offset. -/
def numberAt (bs : Bytes) (offset width : Nat) : Nat :=
  Bytes.toNat (slice bs offset width)

/-- The hash at an offset. -/
def hashAt (bs : Bytes) (offset : Nat) : Except CodecError Hash256 :=
  FixedBytes.ofBytes 32 (slice bs offset 32)

/-- The header with the given octets, of which there must be 118. -/
def decode (bs : Bytes) : Except CodecError LedgerHeader :=
  if bs.length = size then
    match hashAt bs parentHashOffset, hashAt bs transactionHashOffset,
      hashAt bs accountHashOffset with
    | .ok parentHash, .ok transactionHash, .ok accountHash =>
      .ok {
        sequence := UInt32.ofNat (numberAt bs sequenceOffset 4)
        totalCoins := UInt64.ofNat (numberAt bs totalCoinsOffset 8)
        parentHash := parentHash
        transactionHash := transactionHash
        accountHash := accountHash
        parentCloseTime := UInt32.ofNat (numberAt bs parentCloseTimeOffset 4)
        closeTime := UInt32.ofNat (numberAt bs closeTimeOffset 4)
        closeTimeResolution := UInt8.ofNat (numberAt bs closeTimeResolutionOffset 1)
        closeFlags := UInt8.ofNat (numberAt bs closeFlagsOffset 1) }
    | .error e, _, _ => .error e
    | .ok _, .error e, _ => .error e
    | .ok _, .ok _, .error e => .error e
  else .error (.invalidLedgerHeader size bs.length)

/-! ## The ledger -/

/-- The hash that identifies the ledger. -/
def hash (h : LedgerHeader) : Hash256 :=
  Hash.sha512Half (marker ++ h.toBytes)

/-- The close time in seconds since the start of 1970. -/
def closeTimeUnix (h : LedgerHeader) : Nat :=
  h.closeTime.toNat + epochOffset

/-- The parent's close time in seconds since the start of 1970. -/
def parentCloseTimeUnix (h : LedgerHeader) : Nat :=
  h.parentCloseTime.toNat + epochOffset

end LedgerHeader

end XrpLedger
