/-!
# Modular arithmetic

Residues are natural numbers below the modulus.

- `Modular.sub`, `Modular.mul`: difference and product.
- `Modular.pow`: powers with exponents below `2 ^ 256`.
- `Modular.inv`: the inverse for a prime modulus, as a power.
-/

namespace XrpLedger.Modular

/-- The difference of two residues. -/
def sub (m a b : Nat) : Nat :=
  (a + (m - b % m)) % m

/-- The product of two residues. -/
def mul (m a b : Nat) : Nat :=
  a * b % m

/-- The power with the low `bits` bits of `e` as its exponent, by repeated squaring. -/
def powBits (m a : Nat) : (bits e : Nat) → Nat
  | 0, _ => 1 % m
  | bits + 1, e =>
    let half := powBits m a bits (e / 2)
    if e % 2 = 1 then mul m (mul m half half) a else mul m half half

/-- The power with an exponent below `2 ^ 256`. -/
def pow (m a e : Nat) : Nat :=
  powBits m a 256 e

/-- The inverse of a residue that is not zero, for a prime modulus. -/
def inv (m a : Nat) : Nat :=
  pow m a (m - 2)

end XrpLedger.Modular
