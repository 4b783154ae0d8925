import XrpLedger.OpaqueHash
import XrpLedger.Text.Base58Check
import XrpLedger.Text.Mnemonic.Basic

/-!
# Seeds

A seed is sixteen octets from which the keys of an account are derived, and the type of
these keys.

- `KeyType`: the two types of key.
- `Seed`: a seed, with its guarded text, its hexadecimal text and its mnemonic.
-/

namespace XrpLedger

/-- The type of a key. -/
inductive KeyType where
  | secp256k1
  | ed25519
  deriving DecidableEq

namespace KeyType

/-- The name of a key type. -/
def name : KeyType → String
  | .secp256k1 => "secp256k1"
  | .ed25519 => "ed25519"

/-- The name of a key type as it is shown in diagnostics. -/
def describe : KeyType → String
  | .secp256k1 => "Secp256k1"
  | .ed25519 => "Ed25519"

/-- The key type with a name, in either case. -/
def ofName (text : String) : Except CodecError KeyType :=
  let lower := String.ofList (text.toList.map Char.toLower)
  if lower = "secp256k1" then .ok .secp256k1
  else if lower = "ed25519" then .ok .ed25519
  else .error (.invalidSeed (.unknownKeyType text))

/-- The version octets of a seed's text. -/
def seedVersion : KeyType → Bytes
  | .secp256k1 => [0x21]
  | .ed25519 => [0x01, 0xE1, 0x4B]

end KeyType

/-- A seed. -/
structure Seed where
  keyType : KeyType
  entropy : FixedBytes 16
  deriving DecidableEq

namespace Seed

/-- The seed with the given octets, of which there must be sixteen. -/
def ofBytes (keyType : KeyType) (bs : Bytes) : Except CodecError Seed :=
  match FixedBytes.ofBytes 16 bs with
  | .ok entropy => .ok ⟨keyType, entropy⟩
  | .error e => .error e

/-- The guarded text of a seed. -/
def toBase58 (seed : Seed) : String :=
  Text.Base58Check.encodeVersioned seed.keyType.seedVersion seed.entropy.toList

/-- The seed of a key type whose version octets and length the data have. -/
def ofData? (keyType : KeyType) (data : Bytes) : Option Seed :=
  let version := keyType.seedVersion
  if data.take version.length = version then
    (FixedBytes.ofBytes? 16 (data.drop version.length)).map fun entropy =>
      ⟨keyType, entropy⟩
  else none

/-- The seed of a guarded text, whose version octets tell the key type. -/
def ofBase58 (text : String) : Except CodecError Seed :=
  match Text.Base58Check.decode text with
  | .error e => .error e
  | .ok data =>
    match ofData? .ed25519 data, ofData? .secp256k1 data with
    | some seed, _ => .ok seed
    | none, some seed => .ok seed
    | none, none => .error (.invalidSeed .unrecognized)

/-- The hexadecimal text of the octets. -/
def toHex (seed : Seed) : String :=
  seed.entropy.toHex

/-- The seed with the octets of a hexadecimal text. -/
def ofHex (keyType : KeyType) (text : String) : Except CodecError Seed :=
  match Text.Hex.parse text with
  | .ok bs => ofBytes keyType bs
  | .error e => .error e

/-- The mnemonic of a seed, whose octets it takes in reverse. -/
def toMnemonic (seed : Seed) : Except CodecError String :=
  Text.Mnemonic.encode seed.entropy.toList.reverse

/-- The seed of a mnemonic with the right parity. -/
def ofMnemonic (keyType : KeyType) (phrase : String) : Except CodecError Seed :=
  match Text.Mnemonic.decode phrase with
  | .error e => .error e
  | .ok decoded =>
    if decoded.parityError then .error (.invalidSeed .parity)
    else ofBytes keyType decoded.bytes.reverse

/-- The seed as it is shown in diagnostics, without its octets. -/
def describe (seed : Seed) : String :=
  "Seed \x7b key_type: " ++ seed.keyType.describe ++ ", .. \x7d"

end Seed

end XrpLedger
