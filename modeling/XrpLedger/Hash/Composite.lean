import XrpLedger.Hash.Ripemd160
import XrpLedger.Hash.Sha512

/-!
# Composite hashes

- `hash160`: the hash that turns a public key into an account identifier.
- `checksum`: the four octets that guard a text form.
-/

namespace XrpLedger.Hash

/-- RIPEMD-160 of SHA-256. -/
def hash160 (message : Bytes) : FixedBytes 20 :=
  ripemd160 (sha256 message).toList

/-- The first four octets of SHA-256 applied twice. -/
def checksum (message : Bytes) : Bytes :=
  (sha256 (sha256 message).toList).toList.take 4

@[simp] theorem length_checksum (message : Bytes) : (checksum message).length = 4 := by
  simp [checksum, FixedBytes.length_eq]

end XrpLedger.Hash
