import XrpLedger.Key.PublicKey

/-!
# Key pairs

The keys of an account are derived from its seed. An edwards25519 secret is the hash of
the seed. A secp256k1 secret is the sum of a root scalar, which depends on the seed, and a
scalar that depends on the root's public key.

- `KeyPair`: a secret and its public key, with `ofSeed` and `ofSecret`.
- `KeyPair.sign`: the signature of a message.
- `deriveScalar`: the scalar derived from a byte string.
-/

namespace XrpLedger

/-- A secret and its public key. -/
structure KeyPair where
  keyType : KeyType
  secret : FixedBytes 32
  publicKey : PublicKey
  /-- The public key of the root scalar; for edwards25519 the public key itself. -/
  rootPublicKey : PublicKey

/-! ## Derivation -/

/-- The first scalar among the candidates from `counter` on, of which `tries` are looked
at. -/
def firstScalar (candidate : Nat → Nat) : (tries counter : Nat) → Option Nat
  | 0, _ => none
  | tries + 1, counter =>
    let n := candidate counter
    if Ecdsa.isScalar n then some n else firstScalar candidate tries (counter + 1)

/-- What is hashed for a candidate: the given octets, the discriminator if there is one,
and the counter. -/
def scalarInput (front : Bytes) (discriminator : Option UInt32) (counter : Nat) : Bytes :=
  front ++ ((discriminator.map fun d => Bytes.ofNat 4 d.toNat).getD [] ++
    Bytes.ofNat 4 counter)

/-- The scalar derived from a byte string with a hash: the first of all 32-bit counters
whose hash is one. -/
def deriveScalar (hash : Bytes → FixedBytes 32) (front : Bytes)
    (discriminator : Option UInt32) :
    Except CodecError Nat :=
  match firstScalar (fun counter =>
    (hash (scalarInput front discriminator counter)).toNat) UInt32.size 0
  with
  | some n => .ok n
  | none => .error (.invalidSeed .noScalar)

/-- The public key of a scalar. -/
def publicKeyOfScalar (n : Nat) : Except CodecError PublicKey :=
  match Secp256k1.compress? (Secp256k1.Point.mul n Secp256k1.generator) with
  | some form => PublicKey.ofBytes form.toList
  | none => .error (.invalidPublicKey (.rejected []))

namespace KeyPair

/-- The secp256k1 keys of sixteen octets. -/
def deriveSecp256k1 (entropy : Bytes) : Except CodecError KeyPair :=
  match deriveScalar Hash.sha512Half entropy none with
  | .error e => .error e
  | .ok root =>
    match publicKeyOfScalar root with
    | .error e => .error e
    | .ok rootPublicKey =>
      match deriveScalar Hash.sha512Half rootPublicKey.toBytes (some 0) with
      | .error e => .error e
      | .ok tweak =>
        let account := (root + tweak) % Secp256k1.order
        if account = 0 then .error (.invalidSeed .zeroAccountKey)
        else
          match publicKeyOfScalar account with
          | .error e => .error e
          | .ok publicKey =>
            .ok ⟨.secp256k1, FixedBytes.ofNat 32 account, publicKey, rootPublicKey⟩

/-- The edwards25519 keys of sixteen octets. -/
def deriveEd25519 (entropy : Bytes) : KeyPair :=
  let secret := Hash.sha512Half entropy
  let publicKey := PublicKey.ofEd25519 (Eddsa.publicKey secret.toList)
  ⟨.ed25519, secret, publicKey, publicKey⟩

/-- The keys of a seed. -/
def ofSeed (seed : Seed) : Except CodecError KeyPair :=
  match seed.keyType with
  | .secp256k1 => deriveSecp256k1 seed.entropy.toList
  | .ed25519 => .ok (deriveEd25519 seed.entropy.toList)

/-- The keys of a seed given by its text. -/
def ofSecret (text : String) : Except CodecError KeyPair :=
  match Seed.ofBase58 text with
  | .ok seed => ofSeed seed
  | .error e => .error e

/-- The account of a key pair. -/
def accountId (pair : KeyPair) : AccountId :=
  pair.publicKey.accountId

/-- The address of a key pair's account. -/
def address (pair : KeyPair) : String :=
  pair.accountId.toAddress

/-- The signature of a message. A secp256k1 signature is over the first half of the
message's SHA-512 hash. -/
def sign (pair : KeyPair) (message : Bytes) : Except CodecError Bytes :=
  match pair.keyType with
  | .secp256k1 =>
    match Ecdsa.sign? pair.secret.toNat (Hash.sha512Half message) with
    | some (r, s) => .ok (Der.encode r s)
    | none => .error .invalidSignature
  | .ed25519 => .ok (Eddsa.sign pair.secret.toList message)

/-- The key pair as it is shown in diagnostics, without its secret. -/
def describe (pair : KeyPair) : String :=
  "KeyPair \x7b key_type: " ++ pair.keyType.describe ++ ", public_key: " ++
    pair.publicKey.describe ++ ", .. \x7d"

end KeyPair

end XrpLedger
