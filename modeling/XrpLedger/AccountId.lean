import XrpLedger.Text.Base58Check

/-!
# Account identifiers

An account is identified by twenty octets, the hash of its public key. Its text form, the
address, starts with `r`.

- `AccountId`: the identifier, with `ofBytes`, `ofPublicKey`, `toAddress` and `ofAddress`.
-/

namespace XrpLedger

/-- An account identifier. -/
structure AccountId where
  raw : FixedBytes 20
  deriving DecidableEq

namespace AccountId

/-- The version octet of an address. -/
def version : Bytes := [0x00]

/-- The octets of an identifier. -/
def toBytes (id : AccountId) : Bytes :=
  id.raw.toList

/-- The identifier with the given twenty octets. -/
def ofBytes (bs : Bytes) : Except CodecError AccountId :=
  match FixedBytes.ofBytes 20 bs with
  | .ok raw => .ok ⟨raw⟩
  | .error e => .error e

/-- The identifier of the account that a public key controls. -/
def ofPublicKey (key : Bytes) : AccountId :=
  ⟨Hash.hash160 key⟩

/-- The address of an account. -/
def toAddress (id : AccountId) : String :=
  Text.Base58Check.encodeVersioned version id.toBytes

/-- The account with an address. A guarded text of another version or length is no
address. -/
def ofAddress (address : String) : Except CodecError AccountId :=
  match Text.Base58Check.decodeVersioned address version 20 with
  | .ok payload => ofBytes payload
  | .error (.invalidVersion _) => .error (.invalidAddress address)
  | .error (.invalidLength _ _) => .error (.invalidAddress address)
  | .error e => .error e

/-- The identifier as it is shown in diagnostics. -/
def describe (id : AccountId) : String :=
  "AccountId(" ++ id.toAddress ++ ")"

/-- Comparison of the octets. -/
def compare (a b : AccountId) : Ordering :=
  a.raw.compare b.raw

end AccountId

end XrpLedger
