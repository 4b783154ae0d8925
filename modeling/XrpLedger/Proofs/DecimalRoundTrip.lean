import XrpLedger.Proofs.DecimalConversion
import XrpLedger.Proofs.ObtainableValues

/-!
# Decimals as issued values, and back

A decimal is rounded once, when it becomes an issued value: to sixteen digits, halves away
from zero. On the way back nothing is lost, because sixteen digits of a decimal have no
more places than the decimal had. The rounded number may have ninety-seven bits, and is
refused then; it never comes near the numbers that are read with the wrong sign.

- `IssuedValue.toRat_ofDecimal`: the value of a decimal is the decimal, rounded to sixteen
  digits.
- `IssuedValue.rounded28_ofDecimal`: it has twenty-eight places at most.
- `IssuedValue.exponent_ofDecimal_le`, `IssuedValue.toDecimal_of_exponent_le`: values with
  so small an exponent have the decimal that they should have, or none.
- `IssuedValue.toDecimal_ofDecimal`: what becomes of a decimal that goes both ways.
-/

namespace XrpLedger

/-- The number `toRat` of a decimal is its digits, shifted by its places. -/
theorem Decimal96.toRat_eq (d : Decimal96) :
    d.toRat = signed (decide (d.mantissa < 0))
      (d.mantissa.natAbs * 10 ^ (-(d.scale : ℤ))) := by
  rw [toRat, zpow_neg, zpow_natCast, ← div_eq_mul_inv]
  by_cases hneg : d.mantissa < 0
  · have hcast : (d.mantissa : ℚ) = -(d.mantissa.natAbs : ℚ) := by
      have habs : d.mantissa = -(d.mantissa.natAbs : ℤ) := by omega
      rw [← Int.cast_natCast, ← Int.cast_neg, ← habs]
    rw [decide_eq_true hneg, hcast, neg_div]
    rfl
  · have hcast : (d.mantissa : ℚ) = d.mantissa.natAbs := by
      have habs : (d.mantissa.natAbs : ℤ) = d.mantissa := by omega
      rw [← Int.cast_natCast, habs]
    rw [decide_eq_false hneg, hcast]
    rfl

/-- The number `toRat` of a decimal has no more than ninety-six bits. -/
theorem Decimal96.abs_toRat_le (d : Decimal96) : |d.toRat| ≤ 2 ^ 96 - 1 := by
  have hbits : d.mantissa.natAbs + 1 ≤ 2 ^ 96 := d.natAbs_lt
  have hbits' : (d.mantissa.natAbs : ℚ) + 1 ≤ 2 ^ 96 := by exact_mod_cast hbits
  have hshift : (d.mantissa.natAbs : ℚ) * 10 ^ (-(d.scale : ℤ)) ≤ d.mantissa.natAbs := by
    rw [zpow_neg, zpow_natCast, ← div_eq_mul_inv]
    exact div_le_self (Nat.cast_nonneg _) (one_le_pow₀ (by norm_num))
  rw [d.toRat_eq, abs_signed, abs_of_nonneg (by positivity)]
  linarith

/-- A multiple of a greater unit than that of the twenty-eighth place is kept by
`roundPlaces`. -/
theorem roundPlaces_of_exponent {e : ℤ} (he : -28 ≤ e) (n : ℕ) :
    roundPlaces 28 ((n : ℚ) * 10 ^ e) = n * 10 ^ e := by
  have hten : (10 : ℚ) ≠ 0 := by norm_num
  obtain ⟨k, hk⟩ : ∃ k : ℕ, e + 28 = k := Int.eq_ofNat_of_zero_le (by omega)
  have hsplit : (n : ℚ) * 10 ^ e = ((n * 10 ^ k : ℕ) : ℚ) * 10 ^ (-((28 : ℕ) : ℤ)) := by
    have hexponent : e = (k : ℤ) + -((28 : ℕ) : ℤ) := by omega
    rw [hexponent, zpow_add₀ hten, zpow_natCast]
    push_cast
    ring
  rw [hsplit, roundPlaces, roundTo_mul (zpow_ne_zero _ hten), nearest_natCast,
    Int.cast_natCast]

namespace IssuedValue

variable {m : ℕ} {e : ℤ}

/-! ## Scaled mantissas -/

/-- Scaling by `scale` leaves no more places than there were. -/
theorem exists_scale_eq (hm : m ≠ 0) (e : ℤ) :
    ∃ (n : ℕ) (e' : ℤ), e ≤ e' ∧ ((scale m e).1 : ℚ) * 10 ^ (scale m e).2 =
    n * 10 ^ e' := by
  have hscaled := scaled_scale hm e
  generalize scale m e = p at hscaled
  cases hscaled with
  | filled k =>
    -- the zeros are there for the sixteen digits only
    refine ⟨m, e, le_rfl, ?_⟩
    push_cast
    rw [mul_assoc, ← zpow_natCast (10 : ℚ) k, ← zpow_add₀ (by norm_num), add_sub_cancel]
  | rounded k => exact ⟨roundOff k m, e + k, by omega, rfl⟩
  -- what is rounded off was behind the sixteenth digit
  | carried k => exact ⟨minMantissa, e + k + 1, by omega, rfl⟩

/-- Digits behind the sixteenth move the exponent of `scale` up, one each. -/
theorem scale_exponent_le {n : ℕ} (hm : m ≠ 0) (hlt : m < 10 ^ (15 + n)) (e : ℤ) :
    (scale m e).2 ≤ e + n := by
  -- each digit that is dropped stands behind the sixteenth
  have hdropped : ∀ k : ℕ, 10 ^ 15 ≤ m / 10 ^ k → k < n := by
    intro k hlow
    have hle : 10 ^ 15 * 10 ^ k ≤ m :=
      (Nat.le_div_iff_mul_le (Nat.pow_pos (by decide))).mp hlow
    rw [← Nat.pow_add] at hle
    have hpow := (Nat.pow_lt_pow_iff_right (by decide)).mp (Nat.lt_of_le_of_lt hle hlt)
    omega
  have hscaled := scaled_scale hm e
  generalize scale m e = p at hscaled
  cases hscaled with
  | filled k =>
    show e - k ≤ e + n
    omega
  | rounded k hk hlow =>
    have hn := hdropped k hlow
    show e + k ≤ e + n
    omega
  | carried k hk hlow =>
    have hn := hdropped k hlow
    show e + k + 1 ≤ e + n
    omega

/-! ## The value of a decimal -/

variable {d : Decimal96}

/-- A decimal with digits becomes their `scale` with its sign. -/
theorem ofDecimal_of_ne_zero (h : d.mantissa ≠ 0) :
    ofDecimal d = ⟨decide (d.mantissa < 0), (scale d.mantissa.natAbs (-(d.scale : ℤ))).1,
      (scale d.mantissa.natAbs (-(d.scale : ℤ))).2⟩ := by
  rw [ofDecimal, if_neg h]
  rfl

/-- The value `ofDecimal` counts the decimal with `roundDigits` to sixteen digits. -/
theorem toRat_ofDecimal (d : Decimal96) :
    (ofDecimal d).toRat = roundDigits 16 d.toRat := by
  by_cases h : d.mantissa = 0
  · have hzero : d.toRat = 0 := by
      rw [Decimal96.toRat, h, Int.cast_zero, zero_div]
    have hnothing : zero.toRat = 0 := by
      rw [toRat, signed_eq_zero]
      exact mul_eq_zero_of_left Nat.cast_zero _
    rw [ofDecimal, if_pos h, hnothing, hzero, roundDigits, roundTo_zero]
  · have hm : d.mantissa.natAbs ≠ 0 := Int.natAbs_ne_zero.mpr h
    rw [d.toRat_eq, roundDigits_signed, roundDigits_scale hm,
      ofDecimal_of_ne_zero h, toRat]

/-- Sixteen digits of a decimal have twenty-eight places at most, so that `rounded28`
keeps them. -/
theorem rounded28_ofDecimal (d : Decimal96) :
    (ofDecimal d).rounded28 = roundDigits 16 d.toRat := by
  rw [← toRat_ofDecimal, rounded28_eq, toRat]
  congr 1
  by_cases h : d.mantissa = 0
  · rw [ofDecimal, if_pos h]
    exact roundPlaces_of_exponent (by decide) 0
  · have hscale := d.scale_le
    obtain ⟨n, e, he, hvalue⟩ :=
      exists_scale_eq (Int.natAbs_ne_zero.mpr h) (-(d.scale : ℤ))
    rw [ofDecimal_of_ne_zero h]
    show roundPlaces 28 (((scale _ _).1 : ℚ) * 10 ^ (scale _ _).2) = _
    rw [hvalue]
    exact roundPlaces_of_exponent (by omega) n

/-- At most fourteen of the twenty-nine digits of a decimal are rounded off by
`ofDecimal`. -/
theorem exponent_ofDecimal_le (d : Decimal96) : (ofDecimal d).exponent ≤ 14 := by
  by_cases h : d.mantissa = 0
  · rw [ofDecimal, if_pos h]
    decide
  · have hdigits : d.mantissa.natAbs < 10 ^ (15 + 14) :=
      Nat.lt_trans d.natAbs_lt (by decide)
    have hle := scale_exponent_le (Int.natAbs_ne_zero.mpr h) hdigits (-(d.scale : ℤ))
    rw [ofDecimal_of_ne_zero h]
    show (scale _ _).2 ≤ 14
    omega

/-! ## The way back -/

/-- A value with so small an exponent is far from the numbers that `toDecimal` reads with
the wrong sign. -/
theorem abs_rounded28_le {v : IssuedValue} (hpos : 0 < v.mantissa)
    (hm : v.mantissa ≤ maxMantissa) (he : v.exponent ≤ 14) : |v.rounded28| ≤ 10 ^ 30 := by
  -- a fraction is small, and a whole number has as many digits as its exponent allows
  rcases Int.lt_or_le v.exponent 0 with hneg | hnonneg
  · exact (abs_rounded28_lt hpos hm hneg).le.trans (by norm_num)
  · obtain ⟨k, hk⟩ : ∃ k : ℕ, v.exponent = k := Int.eq_ofNat_of_zero_le hnonneg
    have hpow : 10 ^ k ≤ 10 ^ 14 := Nat.pow_le_pow_right (by decide) (by omega)
    have hle : v.mantissa * 10 ^ k ≤ 10 ^ 30 := by
      calc v.mantissa * 10 ^ k ≤ maxMantissa * 10 ^ 14 := Nat.mul_le_mul hm hpow
        _ ≤ 10 ^ 30 := by decide
    rw [rounded28_of_whole hk, abs_signed, Nat.abs_cast]
    exact_mod_cast hle

/-- A value with so small an exponent has a decimal `toDecimal` if its number has
ninety-six bits at most, and is refused if it has more. -/
theorem toDecimal_of_exponent_le {v : IssuedValue} (hv : v.Normal)
    (he : v.exponent ≤ 14) :
    (|v.rounded28| ≤ 2 ^ 96 - 1 → ∃ d, v.toDecimal = .ok d ∧ d.toRat = v.rounded28) ∧
    (2 ^ 96 - 1 < |v.rounded28| →
      v.toDecimal = .error (.overflow (.decimal v.toText))) := by
  rcases hv with rfl | ⟨hlow, hhigh, -⟩
  · have hzero : zero.rounded28 = 0 := by
      show roundTo _ (((0 : ℕ) : ℚ) * 10 ^ (0 : ℤ)) = 0
      rw [Nat.cast_zero, zero_mul, roundTo_zero]
    rw [hzero, abs_zero]
    refine ⟨fun _ => ⟨Decimal96.zero, rfl, ?_⟩, fun hlarge => absurd hlarge (by norm_num)⟩
    show ((0 : ℤ) : ℚ) / 10 ^ 0 = 0
    norm_num
  have hpos : 0 < v.mantissa := Nat.lt_of_lt_of_le (by decide) hlow
  have hbound := abs_rounded28_le hpos hhigh he
  rcases exists_decimalParts? hpos hhigh with
    ⟨-, hlarge⟩ | ⟨n, p, hparts, hvalue, hp, hn, hbits⟩
  · exact absurd (hlarge.trans hbound) (by norm_num)
  rcases Nat.lt_or_ge n (2 ^ 96) with hfew | hmany
  · -- a number that fits
    have hfits : |v.rounded28| ≤ 2 ^ 96 - 1 := by
      have hle : (n : ℚ) + 1 ≤ 2 ^ 96 := by exact_mod_cast hfew
      have habs := abs_signed_div_le v.negative n p
      rw [← hvalue] at habs
      linarith
    exact ⟨fun _ => toDecimal_of_lt hpos hparts hp hvalue hfew,
      fun hlarge => absurd hfits (not_le.mpr hlarge)⟩
  · -- a whole number that does not
    obtain rfl : p = 0 := by omega
    rw [pow_zero, div_one] at hvalue
    have habs : |v.rounded28| = n := by rw [hvalue, abs_signed, Nat.abs_cast]
    rw [habs] at hbound ⊢
    have hbound' : n ≤ 10 ^ 30 := by exact_mod_cast hbound
    refine ⟨fun hfits => ?_, fun _ => toDecimal_of_le hpos hparts hp hmany (by omega)⟩
    have hle : (2 : ℚ) ^ 96 ≤ n := by exact_mod_cast hmany
    linarith

/-! ## Both ways -/

/-- Sixteen digits at most are kept by `roundDigits`. -/
theorem roundDigits_of_lt {m : ℤ} (hm : |m| < 10 ^ 16) (k : ℤ) :
    roundDigits 16 ((m : ℚ) * 10 ^ k) = m * 10 ^ k := by
  have hsigned : ∀ (negative : Bool) (n : ℕ), n < 10 ^ 16 →
      roundDigits 16 (signed negative ((n : ℚ) * 10 ^ k)) =
      signed negative (n * 10 ^ k) := by
    intro negative n hn
    rw [roundDigits_signed]
    congr 1
    rcases Nat.eq_zero_or_pos n with rfl | hpos
    · rw [Nat.cast_zero, zero_mul, roundDigits, roundTo_zero]
    · have hmax : n ≤ maxMantissa := by
        unfold maxMantissa
        omega
      -- filled up to sixteen digits, there is nothing to be dropped
      obtain ⟨j, hlow, hhigh⟩ := exists_mul_pow hpos hmax
      rw [roundDigits_scale (Nat.ne_of_gt hpos), scale_of_mul_pow hlow hhigh]
      push_cast
      rw [mul_assoc, ← zpow_natCast (10 : ℚ) j, ← zpow_add₀ (by norm_num), add_sub_cancel]
  obtain ⟨n, rfl | rfl⟩ := Int.eq_nat_or_neg m
  · rw [Nat.abs_cast] at hm
    exact hsigned false n (by exact_mod_cast hm)
  · rw [abs_neg, Nat.abs_cast] at hm
    rw [Int.cast_neg, neg_mul]
    exact hsigned true n (by exact_mod_cast hm)

/-- The value `ofDecimal` is the decimal, rounded once to sixteen digits. The way back
with `toDecimal` keeps that number if it has ninety-six bits at most, and refuses it if it
has more. So a decimal of sixteen digits at most comes back as the number that it was. -/
theorem toDecimal_ofDecimal (d : Decimal96) :
    (ofDecimal d).toRat = roundDigits 16 d.toRat ∧
    (|roundDigits 16 d.toRat| ≤ 2 ^ 96 - 1 →
      ∃ d', (ofDecimal d).toDecimal = .ok d' ∧ d'.toRat = roundDigits 16 d.toRat) ∧
    (2 ^ 96 - 1 < |roundDigits 16 d.toRat| →
      (ofDecimal d).toDecimal = .error (.overflow (.decimal (ofDecimal d).toText))) ∧
    ∀ m k : ℤ, |m| < 10 ^ 16 → d.toRat = m * 10 ^ k →
      ∃ d', (ofDecimal d).toDecimal = .ok d' ∧ d'.toRat = d.toRat := by
  obtain ⟨hfits, hlarge⟩ :=
    toDecimal_of_exponent_le (normal_ofDecimal d) (exponent_ofDecimal_le d)
  rw [rounded28_ofDecimal] at hfits hlarge
  refine ⟨toRat_ofDecimal d, hfits, hlarge, fun m k hm hvalue => ?_⟩
  have hround : roundDigits 16 d.toRat = d.toRat := by
    rw [hvalue]
    exact roundDigits_of_lt hm k
  rw [hround] at hfits
  exact hfits d.abs_toRat_le

/-- Of the seventeen digits of `-12345678901234.565` the last is rounded, away from zero,
and the others come back. -/
theorem toDecimal_ofDecimal_seventeenDigits :
    ∃ d, (ofDecimal ⟨-12345678901234565, 3, by decide, by decide⟩).toDecimal = .ok d ∧
      d.toRat = -1234567890123457 / 100 := by
  have hboth := toDecimal_ofDecimal ⟨-12345678901234565, 3, by decide, by decide⟩
  have hrounded : ofDecimal ⟨-12345678901234565, 3, by decide, by decide⟩ =
      ⟨true, 1234567890123457, -2⟩ := by
    decide +kernel
  have hvalue : toRat ⟨true, 1234567890123457, -2⟩ = -1234567890123457 / 100 := by
    show -(((1234567890123457 : ℕ) : ℚ) * 10 ^ (-2 : ℤ)) = _
    norm_num
  obtain ⟨hround, hfits, -⟩ := hboth
  rw [← hround, hrounded, hvalue] at hfits
  rw [hrounded]
  refine hfits ?_
  rw [abs_le]
  norm_num

/-- The greatest decimal is rounded up, beyond the ninety-six bits of a decimal. -/
example : (ofDecimal ⟨2 ^ 96 - 1, 0, by decide, by decide⟩).toDecimal =
    .error (.overflow (.decimal "7922816251426434e13")) := by
  decide +kernel

end IssuedValue

end XrpLedger
