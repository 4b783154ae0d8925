import XrpLedger.Error

/-!
# Opaque hashes

Fields and identifiers hold hashes of 128, 160 and 256 bits. Their text form is upper-case
hexadecimal.

- `Hash128`, `Hash160`, `Hash256`: the three widths.
- `FixedBytes.toHex`, `FixedBytes.ofHex`: the text form of any width.
-/

namespace XrpLedger

/-- A 128-bit value, such as the hash of a mail address. -/
abbrev Hash128 := FixedBytes 16

/-- A 160-bit value. -/
abbrev Hash160 := FixedBytes 20

/-- A 256-bit hash, the identifier of ledger objects, transactions and ledgers. -/
abbrev Hash256 := FixedBytes 32

namespace FixedBytes

variable {n : Nat}

/-- The hexadecimal text of the octets. -/
def toHex (a : FixedBytes n) : String :=
  Text.Hex.encode a.toList

/-- The value of fixed width that a hexadecimal text spells. -/
def ofHex (n : Nat) (text : String) : Except CodecError (FixedBytes n) :=
  match Text.Hex.parse text with
  | .ok bs => ofBytes n bs
  | .error e => .error e

/-- The hash as it is shown in diagnostics, with its width in bits. -/
def describe (a : FixedBytes n) : String :=
  "Hash" ++ toString (8 * n) ++ "(" ++ a.toHex ++ ")"

end FixedBytes

end XrpLedger
