import XrpLedger.Bytes
import XrpLedger.Curve.Modular

/-!
# The curve secp256k1

The points of `y ^ 2 = x ^ 3 + 7` over a prime field, in projective coordinates. One
addition formula serves all pairs of points.

- `Secp256k1.Point`: a point, with `add`, `mul` and `affine?`.
- `Secp256k1.generator`, `Secp256k1.order`: the generator and the number of its multiples.
- `Secp256k1.compress?`, `Secp256k1.decompress?`: the form of 33 octets.
-/

namespace XrpLedger.Secp256k1

/-- The order of the field, `2 ^ 256 - 2 ^ 32 - 977`. -/
def field : Nat := 0xFFFFFFFFFFFFFFFFFFFFFFFFFFFFFFFFFFFFFFFFFFFFFFFFFFFFFFFEFFFFFC2F

/-- The order of the group. -/
def order : Nat := 0xFFFFFFFFFFFFFFFFFFFFFFFFFFFFFFFEBAAEDCE6AF48A03BBFD25E8CD0364141

/-- A point in projective coordinates; `z = 0` is the neutral one. -/
structure Point where
  x : Nat
  y : Nat
  z : Nat

namespace Point

/-- The neutral point. -/
def neutral : Point := ⟨0, 1, 0⟩

/-- The sum of two points. -/
def add (p q : Point) : Point :=
  let xx := 3 * (p.x * q.x)
  let yy := p.y * q.y % field
  let zz := 21 * (p.z * q.z) % field
  let xy := (p.x * q.y + q.x * p.y) % field
  let yz := (p.y * q.z + q.y * p.z) % field
  let xz := 21 * (p.x * q.z + q.x * p.z) % field
  let plus := yy + zz
  let minus := Modular.sub field yy zz
  ⟨Modular.sub field (xy * minus) (yz * xz), (plus * minus + xx * xz) % field,
    (plus * yz + xx * xy) % field⟩

/-- The multiple of a point by the low `bits` bits of `k`, by repeated doubling. -/
def mulBits (p : Point) : (bits k : Nat) → Point
  | 0, _ => neutral
  | bits + 1, k =>
    let half := mulBits p bits (k / 2)
    if k % 2 = 1 then add (add half half) p else add half half

/-- The multiple of a point by a number below `2 ^ 256`. -/
def mul (k : Nat) (p : Point) : Point :=
  mulBits p 256 k

/-- The affine coordinates of a point that is not neutral. -/
def affine? (p : Point) : Option (Nat × Nat) :=
  if p.z % field = 0 then none
  else
    let i := Modular.inv field p.z
    some (Modular.mul field p.x i, Modular.mul field p.y i)

end Point

/-- The generator. -/
def generator : Point :=
  ⟨0x79BE667EF9DCBBAC55A06295CE870B07029BFCDB2DCE28D959F2815B16F81798,
    0x483ADA7726A3C4655DA4FBFC0E1108A8FD17B448A68554199C47D08FFB10D4B8, 1⟩

/-- The form of a point that is not neutral: its `x` behind an octet for the parity of its
`y`. -/
def compress? (p : Point) : Option (FixedBytes 33) :=
  p.affine?.map fun (x, y) =>
    ⟨(if y % 2 = 0 then 0x02 else 0x03) :: Bytes.ofNat 32 x, by simp⟩

/-- The point with a form. -/
def decompress? (bs : Bytes) : Option Point :=
  match bs with
  | [] => none
  | tag :: coordinate =>
    let x := Bytes.toNat coordinate
    if (tag = 0x02 ∨ tag = 0x03) ∧ coordinate.length = 32 ∧ x < field then
      let square := (x * x % field * x + 7) % field
      let root := Modular.pow field square ((field + 1) / 4)
      if root * root % field = square then
        some ⟨x, if root % 2 = tag.toNat % 2 then root else Modular.sub field 0 root, 1⟩
      else none
    else none

end XrpLedger.Secp256k1
