import XrpLedger.Curve.Edwards25519
import XrpLedger.Hash.Sha512

/-!
# EdDSA over edwards25519

- `Eddsa.publicKey`, `Eddsa.sign`: the public key of a secret of 32 octets, and its
  signatures.
- `Eddsa.verify`: verification.
-/

namespace XrpLedger.Eddsa

open Edwards25519

/-- The bit that is the highest one of every scalar. -/
def scalarBit : Nat := 0x4000000000000000000000000000000000000000000000000000000000000000

/-- The scalar of a secret: the low half of its hash, with the three low bits cleared, the
top bit cleared and the one below it set. -/
def scalar (secret : Bytes) : Nat :=
  let n := littleEndian ((Hash.sha512 secret).toList.take 32)
  n % scalarBit / 8 * 8 + scalarBit

/-- The form of the public point of a secret. -/
def publicKey (secret : Bytes) : FixedBytes 32 :=
  compress (Point.mul (scalar secret) base)

/-- The hash of a byte string as a scalar. -/
def hashScalar (bs : Bytes) : Nat :=
  littleEndian (Hash.sha512 bs).toList % order

/-- The signature of a message: the form of a point, then a scalar. -/
def sign (secret message : Bytes) : Bytes :=
  let nonce := hashScalar ((Hash.sha512 secret).toList.drop 32 ++ message)
  let point := (compress (Point.mul nonce base)).toList
  let challenge := hashScalar (point ++ ((publicKey secret).toList ++ message))
  point ++ (Bytes.ofNat 32 ((nonce + challenge * scalar secret) % order)).reverse

/-- Whether a byte string is a signature of a message by the owner of a public key. -/
def verify (key message signature : Bytes) : Bool :=
  let point := signature.take 32
  let s := littleEndian (signature.drop 32)
  if signature.length = 64 ∧ s < order then
    match decompress? key with
    | none => false
    | some a =>
      let challenge := hashScalar (point ++ (key ++ message))
      (compress (Point.add (Point.mul s base) (Point.mul challenge a.neg))).toList ==
        point
  else false

end XrpLedger.Eddsa
