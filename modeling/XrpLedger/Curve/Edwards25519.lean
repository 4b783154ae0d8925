import XrpLedger.Bytes
import XrpLedger.Curve.Modular

/-!
# The curve edwards25519

The points of `-x ^ 2 + y ^ 2 = 1 + d x ^ 2 y ^ 2` over the field of order `2 ^ 255 - 19`,
in extended coordinates. One addition formula serves all pairs of points.

- `Edwards25519.Point`: a point, with `add`, `neg` and `mul`.
- `Edwards25519.base`, `Edwards25519.order`: the base point and the number of its
  multiples.
- `Edwards25519.compress`, `Edwards25519.decompress?`: the form of 32 octets.
-/

namespace XrpLedger.Edwards25519

/-- The order of the field, `2 ^ 255 - 19`. -/
def field : Nat := 0x7FFFFFFFFFFFFFFFFFFFFFFFFFFFFFFFFFFFFFFFFFFFFFFFFFFFFFFFFFFFFFED

/-- The order of the base point. -/
def order : Nat := 0x1000000000000000000000000000000014DEF9DEA2F79CD65812631A5CF5D3ED

/-- The top bit of 32 octets, which holds the parity of an `x`. -/
def parityBit : Nat := 0x8000000000000000000000000000000000000000000000000000000000000000

/-- The coefficient of the curve. -/
def coefficient : Nat :=
  Modular.sub field 0 (Modular.mul field 121665 (Modular.inv field 121666))

/-- A square root of minus one. -/
def rootOfMinusOne : Nat :=
  Modular.pow field 2 ((field - 1) / 4)

/-- A point `(x / z, y / z)` with `t = x y / z`. -/
structure Point where
  x : Nat
  y : Nat
  z : Nat
  t : Nat

namespace Point

/-- The neutral point. -/
def neutral : Point := ⟨0, 1, 1, 0⟩

/-- The sum of two points. -/
def add (p q : Point) : Point :=
  let a := Modular.mul field (Modular.sub field p.y p.x) (Modular.sub field q.y q.x)
  let b := Modular.mul field (p.y + p.x) (q.y + q.x)
  let c := 2 * coefficient * p.t % field * q.t % field
  let d := 2 * p.z * q.z % field
  let e := Modular.sub field b a
  let f := Modular.sub field d c
  let g := d + c
  let h := b + a
  ⟨Modular.mul field e f, Modular.mul field g h, Modular.mul field f g,
    Modular.mul field e h⟩

/-- The inverse of a point. -/
def neg (p : Point) : Point :=
  ⟨Modular.sub field 0 p.x, p.y, p.z, Modular.sub field 0 p.t⟩

/-- The multiple of a point by the low `bits` bits of `k`, by repeated doubling. -/
def mulBits (p : Point) : (bits k : Nat) → Point
  | 0, _ => neutral
  | bits + 1, k =>
    let half := mulBits p bits (k / 2)
    if k % 2 = 1 then add (add half half) p else add half half

/-- The multiple of a point by a number below `2 ^ 256`. -/
def mul (k : Nat) (p : Point) : Point :=
  mulBits p 256 k

end Point

/-- The number that a byte string spells, least significant octet first. -/
def littleEndian (bs : Bytes) : Nat :=
  Bytes.toNat bs.reverse

/-- The form of a point: its `y`, least significant octet first, with the parity of its
`x` on top. -/
def compress (p : Point) : FixedBytes 32 :=
  let i := Modular.inv field p.z
  let x := Modular.mul field p.x i
  let y := Modular.mul field p.y i
  ⟨(Bytes.ofNat 32 (y + x % 2 * parityBit)).reverse, by simp⟩

/-- A root of `u / v`, if there is one. -/
def sqrtRatio? (u v : Nat) : Option Nat :=
  let v3 := v * v % field * v % field
  let v7 := v3 * v3 % field * v % field
  let x := Modular.mul field (u * v3 % field)
    (Modular.pow field (u * v7 % field) ((field - 5) / 8))
  let check := v * (x * x % field) % field
  if check = u then some x
  else if check = Modular.sub field 0 u then some (Modular.mul field x rootOfMinusOne)
  else none

/-- The point with a form. The form's `y` need not be below the order of the field, and
the sign of `x = 0` does not matter. -/
def decompress? (bs : Bytes) : Option Point :=
  let n := littleEndian bs
  let sign := n / parityBit % 2
  let y := n % parityBit % field
  let yy := y * y % field
  match sqrtRatio? (Modular.sub field yy 1) ((coefficient * yy + 1) % field) with
  | none => none
  | some root =>
    let x := if root % 2 = sign then root else Modular.sub field 0 root
    some ⟨x, y, 1, Modular.mul field x y⟩

/-- The base point: `y = 4 / 5`, with the even `x`. -/
def base : Point :=
  let x := 15112221349535400772501151409588531511454012693041857206046113283949847762202
  let y := 46316835694926478169428394003475163141307993866256225615783033603165251855960
  ⟨x, y, 1, Modular.mul field x y⟩

end XrpLedger.Edwards25519
