import Mathlib.Algebra.Order.Field.Power
import Mathlib.Algebra.Order.Floor.Ring
import Mathlib.Algebra.Order.Ring.Abs
import Mathlib.Data.Int.Log
import Mathlib.Data.Rat.Floor
import Mathlib.Tactic.FieldSimp
import Mathlib.Tactic.Linarith
import Mathlib.Tactic.NormNum
import Mathlib.Tactic.Positivity
import XrpLedger.Proofs.Rounding

/-!
# Rounding of rational numbers

What rounding is to do, said of rational numbers, where nothing is cut off and nothing is
bounded. Bringing a mantissa to sixteen digits is this rounding.

- `nearest`: the whole number nearest to a rational one, halves away from zero.
- `roundTo`, `roundDigits`, `roundPlaces`: the nearest multiple of a unit, the nearest
  number of so many significant digits, the nearest one of so many places.
- `IssuedValue.toRat`: the number that a value counts.
- `IssuedValue.roundDigits_scale`: scaling rounds to sixteen digits.
-/

namespace XrpLedger

/-- The whole number nearest to a rational one; halves go away from zero. -/
def nearest (q : ℚ) : ℤ :=
  if 0 ≤ q then ⌊q + 1 / 2⌋ else ⌈q - 1 / 2⌉

/-- The nearest multiple of a unit. -/
def roundTo (unit q : ℚ) : ℚ :=
  nearest (q / unit) * unit

/-- The nearest number of `n` significant decimal digits. -/
def roundDigits (n : ℕ) (q : ℚ) : ℚ :=
  roundTo (10 ^ (Int.log 10 |q| + 1 - n)) q

/-- The nearest number of `n` decimal places. -/
def roundPlaces (n : ℕ) (q : ℚ) : ℚ :=
  roundTo (10 ^ (-(n : ℤ))) q

/-- The negative of a number, or the number. -/
def signed (negative : Bool) (q : ℚ) : ℚ :=
  if negative then -q else q

/-- The number that a value counts. -/
def IssuedValue.toRat (v : IssuedValue) : ℚ :=
  signed v.negative (v.mantissa * 10 ^ v.exponent)

/-! ## Signs -/

/-- Rounding with `nearest` does not depend on the sign. -/
theorem nearest_neg (q : ℚ) : nearest (-q) = -nearest q := by
  have hup : ⌈-q - 1 / 2⌉ = -⌊q + 1 / 2⌋ := by
    rw [← Int.ceil_neg]
    congr 1
    ring
  have hdown : ⌊-q + 1 / 2⌋ = -⌈q - 1 / 2⌉ := by
    rw [← Int.floor_neg]
    congr 1
    ring
  unfold nearest
  -- the two halves of the definition are mirror images, and meet at zero
  rcases lt_trichotomy q 0 with hq | rfl | hq
  · rw [if_pos (by linarith), if_neg (by linarith), hdown]
  · norm_num
  · rw [if_neg (by linarith), if_pos hq.le, hup]

theorem roundTo_zero (unit : ℚ) : roundTo unit 0 = 0 := by
  have hzero : nearest 0 = 0 := by norm_num [nearest]
  rw [roundTo, zero_div, hzero, Int.cast_zero, zero_mul]

/-- The sign can be taken out of `roundTo`, since it can be taken out of `nearest`. -/
theorem roundTo_neg (unit q : ℚ) : roundTo unit (-q) = -roundTo unit q := by
  rw [roundTo, neg_div, nearest_neg, Int.cast_neg, neg_mul, roundTo]

/-- Rounding to digits with `roundDigits` leaves the sign. -/
theorem roundDigits_signed (n : ℕ) (negative : Bool) (q : ℚ) :
    roundDigits n (signed negative q) = signed negative (roundDigits n q) := by
  cases negative with
  | false => rfl
  | true =>
    show roundDigits n (-q) = -roundDigits n q
    rw [roundDigits, abs_neg, roundTo_neg, roundDigits]

/-- Rounding to places with `roundPlaces` leaves the sign. -/
theorem roundPlaces_signed (n : ℕ) (negative : Bool) (q : ℚ) :
    roundPlaces n (signed negative q) = signed negative (roundPlaces n q) := by
  cases negative with
  | false => rfl
  | true => exact roundTo_neg _ q

theorem abs_signed (negative : Bool) (q : ℚ) : |signed negative q| = |q| := by
  cases negative with
  | false => rfl
  | true => exact abs_neg q

theorem signed_eq_zero {negative : Bool} {q : ℚ} : signed negative q = 0 ↔ q = 0 := by
  cases negative with
  | false => rfl
  | true => exact neg_eq_zero

/-! ## Whole numbers and their quotients -/

/-- A natural number is `nearest` to itself. -/
theorem nearest_natCast (n : ℕ) : nearest n = n := by
  rw [nearest, if_pos n.cast_nonneg, Int.floor_eq_iff, Int.cast_natCast]
  constructor <;> linarith

/-- Rounding off digits with `IssuedValue.roundOff` is the whole number `nearest` to the
quotient. -/
theorem nearest_div_pow {k : ℕ} (hk : 0 < k) (m : ℕ) :
    nearest (m / 10 ^ k) = IssuedValue.roundOff k m := by
  have hpow : (0 : ℚ) < 10 ^ k := by positivity
  have hhalf : ((10 ^ k / 2 : ℕ) : ℚ) * 2 = 10 ^ k := by
    exact_mod_cast IssuedValue.half_pow_mul_two hk
  -- half a unit more, as a quotient
  have hsum : (m / 10 ^ k + 1 / 2 : ℚ) =
      ((m + 10 ^ k / 2 : ℕ) : ℚ) / ((10 ^ k : ℕ) : ℚ) := by
    push_cast
    field_simp
    linarith
  rw [nearest, if_pos (by positivity), hsum, Rat.floor_natCast_div_natCast]
  rfl

/-- To round a multiple of a unit, its factor is rounded to the `nearest` whole number. -/
theorem roundTo_mul {unit : ℚ} (hunit : unit ≠ 0) (q : ℚ) :
    roundTo unit (q * unit) = nearest q * unit := by
  rw [roundTo, mul_div_cancel_right₀ q hunit]

/-! ## Decimal digits -/

/-- The logarithm `Int.log` of a number of `d + 1` digits that is shifted. -/
theorem log_mul_zpow {m d : ℕ} (hlow : 10 ^ d ≤ m) (hhigh : m < 10 ^ (d + 1)) (e : ℤ) :
    Int.log 10 ((m : ℚ) * 10 ^ e) = d + e := by
  have hten : (10 : ℚ) ≠ 0 := by norm_num
  have hpow : (0 : ℚ) < 10 ^ e := by positivity
  have hpos : (0 : ℚ) < m := by
    have hm : 0 < m := lt_of_lt_of_le (by positivity) hlow
    exact_mod_cast hm
  have hlow' : (10 : ℚ) ^ d ≤ m := by exact_mod_cast hlow
  have hhigh' : (m : ℚ) < 10 ^ (d + 1) := by exact_mod_cast hhigh
  have hq : (0 : ℚ) < m * 10 ^ e := by positivity
  -- the number is below the next power of ten, and not below its own
  apply le_antisymm
  · have hlt : (m : ℚ) * 10 ^ e < ((10 : ℕ) : ℚ) ^ ((d : ℤ) + e + 1) := by
      calc (m : ℚ) * 10 ^ e < 10 ^ (d + 1) * 10 ^ e := by gcongr
        _ = ((10 : ℕ) : ℚ) ^ ((d : ℤ) + e + 1) := by
          rw [← zpow_natCast, ← zpow_add₀ hten]
          push_cast
          congr 1
          ring
    have hlog := (Int.lt_zpow_iff_log_lt (by norm_num) hq).mp hlt
    omega
  · refine (Int.zpow_le_iff_le_log (by norm_num) hq).mp ?_
    calc ((10 : ℕ) : ℚ) ^ ((d : ℤ) + e) = 10 ^ d * 10 ^ e := by
          push_cast
          rw [zpow_add₀ hten, zpow_natCast]
      _ ≤ (m : ℚ) * 10 ^ e := by gcongr

namespace IssuedValue

/-- The unit of `roundDigits` is that of the sixteenth digit. -/
theorem roundDigits_of_log {m d : ℕ} {e u : ℤ} (hlow : 10 ^ d ≤ m)
    (hhigh : m < 10 ^ (d + 1)) (hu : d + e - 15 = u) :
    roundDigits 16 ((m : ℚ) * 10 ^ e) = nearest ((m : ℚ) * 10 ^ (e - u)) * 10 ^ u := by
  have hten : (10 : ℚ) ≠ 0 := by norm_num
  have hpos : (0 : ℚ) ≤ m * 10 ^ e := by positivity
  have hunit : (d : ℤ) + e + 1 - ((16 : ℕ) : ℤ) = u := by
    rw [← hu]
    push_cast
    ring
  have hsplit : (m : ℚ) * 10 ^ e = m * 10 ^ (e - u) * 10 ^ u := by
    rw [mul_assoc, ← zpow_add₀ hten, sub_add_cancel]
  rw [roundDigits, abs_of_nonneg hpos, log_mul_zpow hlow hhigh, hunit, hsplit]
  exact roundTo_mul (zpow_ne_zero u hten) _

/-- Bringing a mantissa to sixteen digits by `scale` is `roundDigits` to
sixteen digits. -/
theorem roundDigits_scale {m : ℕ} (hm : m ≠ 0) (e : ℤ) :
    roundDigits 16 ((m : ℚ) * 10 ^ e) = ((scale m e).1 : ℚ) * 10 ^ (scale m e).2 := by
  have hten : (10 : ℚ) ≠ 0 := by norm_num
  -- what is left of many digits is sixteen of them
  have hmany : ∀ k : ℕ, 0 < k → 10 ^ 15 ≤ m / 10 ^ k → m / 10 ^ k < 10 ^ 16 →
      roundDigits 16 ((m : ℚ) * 10 ^ e) = (roundOff k m : ℚ) * 10 ^ (e + k) := by
    intro k hk hlow hhigh
    have hpow : 0 < 10 ^ k := by positivity
    have hlow' : 10 ^ (15 + k) ≤ m := by
      rw [pow_add]
      exact (Nat.le_div_iff_mul_le hpow).mp hlow
    have hhigh' : m < 10 ^ (15 + k + 1) := by
      have hsum : 15 + k + 1 = 16 + k := by ring
      rw [hsum, pow_add]
      exact (Nat.div_lt_iff_lt_mul hpow).mp hhigh
    have hquotient : (m : ℚ) * 10 ^ (e - (e + k)) = m / 10 ^ k := by
      rw [sub_add_cancel_left, zpow_neg, zpow_natCast, div_eq_mul_inv]
    rw [roundDigits_of_log (u := e + k) hlow' hhigh' (by push_cast; ring), hquotient,
      nearest_div_pow hk, Int.cast_natCast]
  have hscaled := scaled_scale hm e
  generalize scale m e = p at hscaled
  -- zeros are filled in without a loss, and digits are dropped by rounding, up to one
  -- place more
  cases hscaled with
  | filled k hlow hhigh =>
    have hlow' : 10 ^ 15 ≤ m * 10 ^ k := hlow
    have hhigh' : m * 10 ^ k < 10 ^ (15 + 1) := Nat.lt_of_le_of_lt hhigh (by decide)
    have hsplit : (m : ℚ) * 10 ^ e = ((m * 10 ^ k : ℕ) : ℚ) * 10 ^ (e - k) := by
      push_cast
      rw [mul_assoc, ← zpow_natCast (10 : ℚ) k, ← zpow_add₀ hten, add_sub_cancel]
    rw [hsplit, roundDigits_of_log (u := e - k) hlow' hhigh' (by push_cast; ring),
      sub_self, zpow_zero, mul_one, nearest_natCast, Int.cast_natCast]
  | rounded k hk hlow hhigh => exact hmany k hk hlow hhigh
  | carried k hk hlow hhigh hcarry =>
    rw [hmany k hk hlow hhigh, hcarry, zpow_add_one₀ hten]
    unfold minMantissa
    push_cast
    ring

end IssuedValue

end XrpLedger
