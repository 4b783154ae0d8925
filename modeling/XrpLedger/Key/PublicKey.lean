import XrpLedger.AccountId
import XrpLedger.Hash.Sha512
import XrpLedger.Key.Seed
import XrpLedger.Signature.Der
import XrpLedger.Signature.Ecdsa
import XrpLedger.Signature.Eddsa

/-!
# Public keys

A public key has 33 octets: the compressed form of a point of secp256k1, or a marker octet
and an edwards25519 key.

- `PublicKey`: a public key, with its texts and its account.
- `PublicKey.verify`: the check of a signature.
-/

namespace XrpLedger

namespace PublicKey

/-- The number of octets of a key. -/
def size : Nat := 33

/-- Marks an edwards25519 key. -/
def ed25519Marker : UInt8 := 0xED

/-- Whether octets are a public key. -/
def isAccepted (raw : FixedBytes 33) : Bool :=
  raw.toList.head? == some ed25519Marker || (Secp256k1.decompress? raw.toList).isSome

/-- The version octets of an account's public key. -/
def accountVersion : Bytes := [0x23]

/-- The version octets of a node's public key. -/
def nodeVersion : Bytes := [0x1C]

end PublicKey

/-- A public key. -/
structure PublicKey where
  raw : FixedBytes 33
  isAccepted_raw : PublicKey.isAccepted raw = true
  deriving DecidableEq

namespace PublicKey

/-- The octets of a key. -/
def toBytes (key : PublicKey) : Bytes :=
  key.raw.toList

/-- The key with the given octets. -/
def ofBytes (bs : Bytes) : Except CodecError PublicKey :=
  match FixedBytes.ofBytes size bs with
  | .error e => .error e
  | .ok raw =>
    if h : isAccepted raw = true then .ok ⟨raw, h⟩
    else .error (.invalidPublicKey (.rejected bs))

theorem ofBytes_eq_ok {bs : Bytes} {key : PublicKey} :
    ofBytes bs = .ok key ↔ key.toBytes = bs := by
  unfold ofBytes
  constructor
  · intro h
    split at h
    · cases h
    · next raw hraw =>
      split at h
      · cases h
        exact FixedBytes.ofBytes_eq_ok.mp hraw
      · cases h
  · rintro rfl
    have hraw : FixedBytes.ofBytes size key.toBytes = .ok key.raw :=
      FixedBytes.ofBytes_eq_ok.mpr rfl
    rw [hraw]
    simp only
    rw [dif_pos key.isAccepted_raw]

/-- The key with the octets of a hexadecimal text. -/
def ofHex (text : String) : Except CodecError PublicKey :=
  match Text.Hex.parse text with
  | .ok bs => ofBytes bs
  | .error e => .error e

/-- The hexadecimal text of a key. -/
def toHex (key : PublicKey) : String :=
  key.raw.toHex

/-- The edwards25519 key with the given octets behind its marker. -/
def ofEd25519 (point : FixedBytes 32) : PublicKey where
  raw := ⟨ed25519Marker :: point.toList, by simp [point.length_eq]⟩
  isAccepted_raw := by simp [isAccepted]

/-- The type of a key. -/
def keyType (key : PublicKey) : KeyType :=
  if key.toBytes.head? = some ed25519Marker then .ed25519 else .secp256k1

/-- The account that a key controls. -/
def accountId (key : PublicKey) : AccountId :=
  AccountId.ofPublicKey key.toBytes

/-- The key of a guarded text with the given version octets. -/
def ofVersioned (version : Bytes) (text : String) : Except CodecError PublicKey :=
  match Text.Base58Check.decodeVersioned text version size with
  | .ok payload => ofBytes payload
  | .error e => .error e

/-- The text of an account's public key. -/
def toAccountPublic (key : PublicKey) : String :=
  Text.Base58Check.encodeVersioned accountVersion key.toBytes

/-- The public key of an account's text. -/
def ofAccountPublic (text : String) : Except CodecError PublicKey :=
  ofVersioned accountVersion text

/-- The text of a node's public key. -/
def toNodePublic (key : PublicKey) : String :=
  Text.Base58Check.encodeVersioned nodeVersion key.toBytes

/-- The public key of a node's text. -/
def ofNodePublic (text : String) : Except CodecError PublicKey :=
  ofVersioned nodeVersion text

/-! ## Signatures -/

/-- The pair of a secp256k1 signature: two scalars in strict form, the second the lesser
of its two choices. -/
def signaturePair? (signature : Bytes) : Option (Nat × Nat) :=
  match Der.decode? signature with
  | none => none
  | some (r, s) =>
    if Ecdsa.isScalar r && Ecdsa.isScalar s && Ecdsa.isLow s then some (r, s) else none

/-- Whether a byte string is a signature of a message by the owner of a key. A secp256k1
signature is over the first half of the message's SHA-512 hash. -/
def accepts (key : PublicKey) (message signature : Bytes) : Bool :=
  match key.keyType with
  | .secp256k1 =>
    match Secp256k1.decompress? key.toBytes, signaturePair? signature with
    | some point, some (r, s) => Ecdsa.verify point (Hash.sha512Half message) r s
    | _, _ => false
  | .ed25519 => Eddsa.verify (key.toBytes.drop 1) message signature

/-- Refuses what is no signature of a message by the owner of a key. -/
def verify (key : PublicKey) (message signature : Bytes) : Except CodecError Unit :=
  if key.accepts message signature then .ok () else .error .invalidSignature

/-- The key as it is shown in diagnostics. -/
def describe (key : PublicKey) : String :=
  "PublicKey(" ++ key.toHex ++ ")"

/-- Comparison of the octets. -/
def compare (a b : PublicKey) : Ordering :=
  a.raw.compare b.raw

end PublicKey

end XrpLedger
