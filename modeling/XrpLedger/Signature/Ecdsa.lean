import XrpLedger.Curve.Secp256k1
import XrpLedger.Hash.Sha256

/-!
# ECDSA over secp256k1

Signatures of 32-octet digests, with nonces derived from the key and the digest. Of the
two signatures `(r, s)` and `(r, order - s)` only the one with the lesser `s` is made and
accepted.

- `Ecdsa.sign?`, `Ecdsa.verify`: signing and verification.
- `Ecdsa.isLow`, `Ecdsa.lower`: the choice between the two.
-/

namespace XrpLedger.Ecdsa

open Secp256k1

/-- Whether a number is a scalar other than zero. -/
def isScalar (n : Nat) : Bool :=
  0 < n && n < order

theorem isScalar_iff {n : Nat} : isScalar n = true ↔ 0 < n ∧ n < order := by
  rw [isScalar, Bool.and_eq_true, decide_eq_true_eq, decide_eq_true_eq]

/-- Whether `s` is the lesser of `s` and `order - s`. -/
def isLow (s : Nat) : Bool :=
  s ≤ order / 2

/-- The lesser of `s` and `order - s`. -/
def lower (s : Nat) : Nat :=
  if isLow s then s else order - s

/-! ## Nonces -/

/-- The state of the nonce generator: a key and a value, 32 octets each. -/
structure Generator where
  key : Bytes
  value : Bytes

namespace Generator

/-- Replaces the value. -/
def step (g : Generator) : Generator :=
  ⟨g.key, Hash.hmacSha256 g.key g.value⟩

/-- Mixes data into the key, and replaces the value. -/
def mix (g : Generator) (data : Bytes) : Generator :=
  step ⟨Hash.hmacSha256 g.key (g.value ++ data), g.value⟩

/-- The generator for a key and a digest. -/
def start (secret : Nat) (digest : FixedBytes 32) : Generator :=
  let material := Bytes.ofNat 32 secret ++ digest.toList
  let g : Generator := ⟨List.replicate 32 0, List.replicate 32 1⟩
  (g.mix (0 :: material)).mix (1 :: material)

/-- The first value that is a scalar, of `tries` values. Nearly every value is one. -/
def nonce? : (tries : Nat) → Generator → Option Nat
  | 0, _ => none
  | tries + 1, g =>
    let g := g.step
    let k := Bytes.toNat g.value
    if isScalar k then some k else nonce? tries (g.mix [0])

end Generator

/-- The nonce for a key and a digest. -/
def nonce? (secret : Nat) (digest : FixedBytes 32) : Option Nat :=
  (Generator.start secret digest).nonce? 1000

/-! ## Signatures -/

/-- The signature of a digest by the key `secret`. -/
def sign? (secret : Nat) (digest : FixedBytes 32) : Option (Nat × Nat) :=
  match nonce? secret digest with
  | none => none
  | some k =>
    match (Point.mul k generator).affine? with
    | none => none
    | some (x, _) =>
      let r := x % order
      let s := Modular.mul order (Modular.inv order k) (digest.toNat + r * secret)
      if r = 0 ∨ s = 0 then none else some (r, lower s)

/-- Whether `(r, s)` is a signature of a digest by the owner of a point. -/
def verify (key : Point) (digest : FixedBytes 32) (r s : Nat) : Bool :=
  let w := Modular.inv order s
  let u := Modular.mul order digest.toNat w
  let v := Modular.mul order r w
  match (Point.add (Point.mul u generator) (Point.mul v key)).affine? with
  | some (x, _) => x % order == r
  | none => false

end XrpLedger.Ecdsa
