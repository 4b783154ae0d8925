import XrpLedger.Amount.Decimal96
import XrpLedger.Proofs.RationalRounding

/-!
# Issued values as decimals

The decimal of an issued value is the value rounded to twenty-eight places, or is refused
if that has ninety-seven bits or more. But a whole number is read as a signed 128-bit word
on the way, and so a few values just below `2 ^ 128` have a decimal, of the other sign,
instead of being refused.

- `Decimal96.toRat`, `IssuedValue.rounded28`: the number that a decimal is, and the number
  that the decimal of a value is to be.
- `IssuedValue.exists_decimalParts?`: the parts of a decimal are the rounded number.
- `IssuedValue.Wraps`: the values whose magnitude is read as a negative number of a
  decimal.
- `IssuedValue.toDecimal_rounded`: which values have a decimal, and which decimal.
- `IssuedValue.toDecimal_wraps`: one that should have none.
-/

namespace XrpLedger

namespace Decimal96

theorem mantissaBound_eq : mantissaBound = 2 ^ 96 := by decide

/-- The number that a decimal is. -/
def toRat (d : Decimal96) : ℚ :=
  d.mantissa / 10 ^ d.scale

/-- Zeros that `stripZeros` takes away do not change the number. -/
theorem stripZeros_value (scale magnitude : ℕ) :
    ((stripZeros scale magnitude).2 : ℚ) / 10 ^ (stripZeros scale magnitude).1 =
      magnitude / 10 ^ scale := by
  induction scale generalizing magnitude with
  | zero => rfl
  | succ scale ih =>
    rw [stripZeros]
    split
    · next hzero =>
      have hten : magnitude / 10 * 10 = magnitude := by omega
      have hcast : ((magnitude / 10 : ℕ) : ℚ) * 10 = magnitude := by exact_mod_cast hten
      rw [ih, ← hcast, pow_succ]
      field_simp
    · rfl

/-- The number `toRat` is kept by `normalize`. -/
theorem toRat_normalize (d : Decimal96) : d.normalize.toRat = d.toRat := by
  have hsign : (d.mantissa.sign : ℚ) * d.mantissa.natAbs = d.mantissa := by
    rw [← Int.cast_natCast, ← Int.cast_mul, Int.sign_mul_natAbs]
  show ((d.mantissa.sign * Int.ofNat (stripZeros d.scale d.mantissa.natAbs).2 : ℤ) : ℚ) /
    10 ^ (stripZeros d.scale d.mantissa.natAbs).1 = d.mantissa / 10 ^ d.scale
  rw [Int.cast_mul, Int.ofNat_eq_natCast, Int.cast_natCast, mul_div_assoc,
    stripZeros_value, ← mul_div_assoc, hsign]

end Decimal96

/-! ## Places -/

/-- A number of at most twenty-eight places is kept by `roundPlaces`. -/
theorem roundPlaces_of_le {p : ℕ} (hp : p ≤ 28) (n : ℕ) :
    roundPlaces 28 ((n : ℚ) / 10 ^ p) = n / 10 ^ p := by
  have hten : (10 : ℚ) ≠ 0 := by norm_num
  have hunits : (n : ℚ) / 10 ^ p =
      ((n * 10 ^ (28 - p) : ℕ) : ℚ) * 10 ^ (-((28 : ℕ) : ℤ)) := by
    have hpow : (10 : ℚ) ^ 28 = 10 ^ (28 - p) * 10 ^ p := by
      rw [← pow_add, Nat.sub_add_cancel hp]
    rw [zpow_neg, zpow_natCast, hpow]
    push_cast
    field_simp
  rw [hunits, roundPlaces, roundTo_mul (zpow_ne_zero _ hten), nearest_natCast,
    Int.cast_natCast]

/-- Of more places the last are rounded off, by `roundOff`. -/
theorem roundPlaces_of_lt {k : ℕ} (hk : 0 < k) (n : ℕ) :
    roundPlaces 28 ((n : ℚ) * 10 ^ (-((28 + k : ℕ) : ℤ))) =
      (IssuedValue.roundOff k n : ℚ) / 10 ^ 28 := by
  have hten : (10 : ℚ) ≠ 0 := by norm_num
  have hunits : (n : ℚ) * 10 ^ (-((28 + k : ℕ) : ℤ)) =
      n / 10 ^ k * 10 ^ (-((28 : ℕ) : ℤ)) := by
    rw [zpow_neg, zpow_neg, zpow_natCast, zpow_natCast, pow_add]
    field_simp
  rw [hunits, roundPlaces, roundTo_mul (zpow_ne_zero _ hten), nearest_div_pow hk,
    Int.cast_natCast, zpow_neg, zpow_natCast, div_eq_mul_inv]

namespace IssuedValue

variable {v : IssuedValue} {m : ℕ}

/-- The number that the decimal of a value is to be. -/
def rounded28 (v : IssuedValue) : ℚ :=
  roundPlaces 28 v.toRat

/-- The sign has no part in `rounded28`. -/
theorem rounded28_eq (v : IssuedValue) :
    v.rounded28 = signed v.negative (roundPlaces 28 (v.mantissa * 10 ^ v.exponent)) :=
  roundPlaces_signed 28 v.negative _

/-! ## Words -/

theorem wide?_of_lt {n : ℕ} (hn : n < 2 ^ 128) : wide? n = some n :=
  if_pos hn

theorem wide?_of_le {n : ℕ} (hn : 2 ^ 128 ≤ n) : wide? n = none :=
  if_neg (Nat.not_lt.mpr hn)

/-- The lower half of the words is read by `signedWide` as it is. -/
theorem signedWide_of_lt {n : ℕ} (hn : n < 2 ^ 127) : signedWide n = n := by
  unfold signedWide wideSize
  exact Int.bmod_eq_of_le (by omega) (by omega)

/-- The upper half of the words is read by `signedWide` as negative numbers. -/
theorem signedWide_of_le {n : ℕ} (hlow : 2 ^ 127 ≤ n) (hhigh : n < 2 ^ 128) :
    signedWide n = n - 2 ^ 128 := by
  have hself : (n : ℤ) % (wideSize : ℕ) = n :=
    Int.emod_eq_of_lt (by omega) (by unfold wideSize; omega)
  have hupper : ¬ (n : ℤ) < ((wideSize : ℕ) + 1) / 2 := by
    unfold wideSize
    omega
  rw [signedWide, Int.bmod_def, hself, if_neg hupper]
  rfl

/-! ## Digits that are shifted out -/

/-- Shifting digits out with `shiftOut` rounds them off, by `roundOff`. -/
theorem shiftOut_eq {k : ℕ} (hk : 0 < k) (hm : m ≤ maxMantissa) :
    shiftOut m k = roundOff k m := by
  have hpos : 0 < 10 ^ k := Nat.pow_pos (by decide)
  have heven : 10 ^ k / 2 * 2 = 10 ^ k := half_pow_mul_two hk
  have hnone : m * 10 < 10 ^ k → roundOff k m = 0 := by
    intro hall
    exact Nat.div_eq_of_lt (by omega)
  unfold shiftOut
  rw [Nat.pow_eq]
  -- a power of ten that is no word stands above all mantissas
  rcases Nat.lt_or_ge (10 ^ k) (2 ^ 128) with hwide | hwide
  · rw [wide?_of_lt hwide]
    simp only
    -- if less than a tenth of the power is there, nothing is left of it
    by_cases hall : 10 ^ k ≤ m * 10
    · have hparts : m / 10 ^ k * 10 ^ k + m % 10 ^ k = m := Nat.div_add_mod' m (10 ^ k)
      have hrest : m % 10 ^ k < 10 ^ k := Nat.mod_lt m hpos
      have hround : roundOff k m = m / 10 ^ k + (m % 10 ^ k + 10 ^ k / 2) / 10 ^ k := by
        rw [roundOff, ← Nat.mul_add_div hpos]
        congr 1
        rw [Nat.mul_comm]
        omega
      rw [if_pos hall, hround]
      split
      · have hup : (m % 10 ^ k + 10 ^ k / 2) / 10 ^ k = 1 :=
          Nat.div_eq_of_lt_le (by omega) (by omega)
        rw [hup]
      · have hdown : (m % 10 ^ k + 10 ^ k / 2) / 10 ^ k = 0 := Nat.div_eq_of_lt (by omega)
        rw [hdown, Nat.add_zero]
    · rw [if_neg hall, hnone (Nat.not_le.mp hall)]
  · rw [wide?_of_le hwide]
    unfold maxMantissa at hm
    exact (hnone (by omega)).symm

/-! ## Parts -/

/-- Without places, `decimalParts?` is the whole number, if it is a word. -/
theorem decimalParts?_of_whole {k : ℕ} (hk : v.exponent = k) (hpos : 0 < v.mantissa) :
    v.decimalParts? =
      if v.mantissa * 10 ^ k < 2 ^ 128 then some (v.mantissa * 10 ^ k, 0) else none := by
  have hpower : 10 ^ k ≤ v.mantissa * 10 ^ k := Nat.le_mul_of_pos_left _ hpos
  have hnonneg : 0 ≤ v.exponent := by omega
  unfold decimalParts?
  rw [if_pos hnonneg, hk, Int.toNat_natCast, Nat.pow_eq]
  -- the product is a word, and then so is the power of ten
  by_cases hproduct : v.mantissa * 10 ^ k < 2 ^ 128
  · rw [wide?_of_lt (Nat.lt_of_le_of_lt hpower hproduct), if_pos hproduct]
    simp only
    rw [wide?_of_lt hproduct]
    rfl
  · rw [if_neg hproduct]
    rcases Nat.lt_or_ge (10 ^ k) (2 ^ 128) with hpow | hpow
    · rw [wide?_of_lt hpow]
      simp only
      rw [wide?_of_le (Nat.not_lt.mp hproduct)]
      rfl
    · rw [wide?_of_le hpow]

/-- With places, `decimalParts?` keeps twenty-eight of them at most. -/
theorem decimalParts?_of_places {p : ℕ} (hp : v.exponent = -(p : ℤ)) (hpos : 0 < p) :
    v.decimalParts? =
      if p ≤ 28 then some (v.mantissa, p)
      else some (shiftOut v.mantissa (p - 28), 28) := by
  have hneg : ¬ 0 ≤ v.exponent := by omega
  have hnatAbs : v.exponent.natAbs = p := by omega
  unfold decimalParts?
  rw [if_neg hneg, hnatAbs]
  rfl

/-- Whole numbers have no places, so `rounded28` keeps them. -/
theorem rounded28_of_whole {k : ℕ} (hk : v.exponent = k) :
    v.rounded28 = signed v.negative ((v.mantissa * 10 ^ k : ℕ) : ℚ) := by
  have hround := roundPlaces_of_le (Nat.zero_le 28) (v.mantissa * 10 ^ k)
  rw [pow_zero, div_one] at hround
  rw [rounded28_eq, hk, zpow_natCast, ← hround, Nat.cast_mul,
    Nat.cast_pow, Nat.cast_ofNat]

/-- The parts `decimalParts?` of a decimal are the magnitude, rounded to twenty-eight
places. There are none if that is no word, and it has few bits unless it is whole. -/
theorem exists_decimalParts? (hpos : 0 < v.mantissa) (hm : v.mantissa ≤ maxMantissa) :
    (v.decimalParts? = none ∧ (2 : ℚ) ^ 128 ≤ |v.rounded28|) ∨
    ∃ n p : ℕ, v.decimalParts? = some (n, p) ∧
    v.rounded28 = signed v.negative (n / 10 ^ p) ∧
      p ≤ 28 ∧ n < 2 ^ 128 ∧ (0 ≤ v.exponent ∧ p = 0 ∨ n < 2 ^ 96) := by
  have hbits : maxMantissa < 2 ^ 96 := by decide
  rcases Int.lt_or_le v.exponent 0 with hneg | hnonneg
  · obtain ⟨p, hp⟩ : ∃ p : ℕ, v.exponent = -(p : ℤ) := Int.exists_eq_neg_ofNat hneg.le
    right
    rw [decimalParts?_of_places hp (by omega), rounded28_eq, hp]
    -- up to twenty-eight places nothing is rounded, and of more the last are shifted out
    by_cases hfew : p ≤ 28
    · refine ⟨v.mantissa, p, if_pos hfew, ?_, hfew, by omega, .inr (by omega)⟩
      rw [zpow_neg, zpow_natCast, ← div_eq_mul_inv, roundPlaces_of_le hfew]
    · obtain ⟨k, rfl⟩ : ∃ k, p = 28 + k := Nat.exists_eq_add_of_le (by omega)
      have hk : 0 < k := by omega
      have hround := roundOff_le hk v.mantissa
      rw [if_neg hfew, Nat.add_sub_cancel_left, shiftOut_eq hk hm]
      refine ⟨_, 28, rfl, ?_, le_rfl, by omega, .inr (by omega)⟩
      rw [roundPlaces_of_lt hk]
  · obtain ⟨k, hk⟩ : ∃ k : ℕ, v.exponent = k := Int.eq_ofNat_of_zero_le hnonneg
    rw [decimalParts?_of_whole hk hpos, rounded28_of_whole hk]
    by_cases hproduct : v.mantissa * 10 ^ k < 2 ^ 128
    · right
      refine ⟨_, 0, if_pos hproduct, ?_, Nat.zero_le 28, hproduct, .inl ⟨hnonneg, rfl⟩⟩
      rw [pow_zero, div_one]
    · left
      refine ⟨if_neg hproduct, ?_⟩
      rw [abs_signed, Nat.abs_cast]
      exact_mod_cast Nat.not_lt.mp hproduct

/-! ## Decimals -/

/-- Without parts, `toDecimal` refuses the value. -/
theorem toDecimal_of_none (hpos : 0 < v.mantissa) (hparts : v.decimalParts? = none) :
    v.toDecimal = .error (.overflow (.decimal v.toText)) := by
  have hzero : v.isZero = false := beq_false_of_ne (Nat.ne_of_gt hpos)
  unfold toDecimal
  rw [hzero, if_neg Bool.false_ne_true, hparts]

/-- The parts make a decimal by `toDecimal` exactly if the word `signedWide` that they are
read as has less than ninety-seven bits. -/
theorem toDecimal_of_some {n p : ℕ} (hpos : 0 < v.mantissa)
    (hparts : v.decimalParts? = some (n, p)) (hp : p ≤ 28) :
    ((signedWide n).natAbs < 2 ^ 96 →
      ∃ d, v.toDecimal = .ok d ∧ d.toRat = signed v.negative (signedWide n / 10 ^ p)) ∧
    (2 ^ 96 ≤ (signedWide n).natAbs →
      v.toDecimal = .error (.overflow (.decimal v.toText))) := by
  have hzero : v.isZero = false := beq_false_of_ne (Nat.ne_of_gt hpos)
  -- the sign does not matter to the number of bits
  have hnatAbs : (if v.negative then -signedWide n else signedWide n).natAbs =
      (signedWide n).natAbs := by
    split
    · exact Int.natAbs_neg _
    · rfl
  unfold toDecimal
  rw [hzero, if_neg Bool.false_ne_true, hparts]
  simp only
  unfold Decimal96.ofParts?
  rw [← hnatAbs, ← Decimal96.mantissaBound_eq]
  constructor
  · intro hfew
    rw [dif_pos ⟨hfew, hp⟩]
    refine ⟨_, rfl, ?_⟩
    rw [Decimal96.toRat_normalize]
    show ((if v.negative then -signedWide n else signedWide n : ℤ) : ℚ) / 10 ^ p =
      if v.negative then -(signedWide n / 10 ^ p : ℚ) else signedWide n / 10 ^ p
    split
    · rw [Int.cast_neg, neg_div]
    · rfl
  · intro hmany
    rw [dif_neg fun hfew => absurd hfew.1 (Nat.not_lt.mpr hmany)]

/-- A whole number just below `2 ^ 128`, which is read as a negative number of less than
ninety-seven bits. -/
def Wraps (v : IssuedValue) : Prop :=
  v.exponent = 23 ∧ 3402823668417104 ≤ v.mantissa ∧ v.mantissa ≤ 3402823669209384

theorem cast_bandStart : ((2 ^ 128 - 2 ^ 96 : ℕ) : ℚ) = 2 ^ 128 - 2 ^ 96 := by norm_num

theorem abs_signed_div_le (negative : Bool) (n p : ℕ) :
    |signed negative ((n : ℚ) / 10 ^ p)| ≤ n := by
  rw [abs_signed, abs_of_nonneg (by positivity)]
  exact div_le_self n.cast_nonneg (one_le_pow₀ (by norm_num))

/-- Only whole numbers have many bits. -/
theorem abs_rounded28_lt (hpos : 0 < v.mantissa) (hm : v.mantissa ≤ maxMantissa)
    (hneg : v.exponent < 0) : |v.rounded28| < 2 ^ 96 := by
  rcases exists_decimalParts? hpos hm with ⟨hnone, -⟩ | ⟨n, p, -, hvalue, -,
    -, hwhole | hfew⟩
  · obtain ⟨p, hp⟩ : ∃ p : ℕ, v.exponent = -(p : ℤ) := Int.exists_eq_neg_ofNat hneg.le
    rw [decimalParts?_of_places hp (by omega)] at hnone
    split at hnone <;> cases hnone
  · omega
  · rw [hvalue]
    calc |signed v.negative ((n : ℚ) / 10 ^ p)| ≤ n := abs_signed_div_le v.negative n p
      _ < 2 ^ 96 := by exact_mod_cast hfew

/-- Only one exponent leads to whole numbers just below `2 ^ 128`: these are the values
that are in `Wraps`. -/
theorem wraps_iff (hlow : minMantissa ≤ v.mantissa) (hhigh : v.mantissa ≤ maxMantissa) :
    v.Wraps ↔ 2 ^ 128 - 2 ^ 96 < |v.rounded28| ∧ |v.rounded28| < 2 ^ 128 := by
  have hpos : 0 < v.mantissa := Nat.lt_of_lt_of_le (by decide) hlow
  -- for a whole number the bounds are those of its digits
  have hwhole : ∀ k : ℕ, v.exponent = k →
      (2 ^ 128 - 2 ^ 96 < |v.rounded28| ∧ |v.rounded28| < 2 ^ 128 ↔
        2 ^ 128 - 2 ^ 96 < v.mantissa * 10 ^ k ∧ v.mantissa * 10 ^ k < 2 ^ 128) := by
    intro k hk
    rw [rounded28_of_whole hk, abs_signed, Nat.abs_cast, ← cast_bandStart]
    norm_cast
  constructor
  · rintro ⟨hexponent, hleast, hgreatest⟩
    refine (hwhole 23 hexponent).mpr ⟨?_, ?_⟩ <;> omega
  · rintro hband
    rcases Int.lt_or_le v.exponent 0 with hneg | hnonneg
    · -- a number with places is far below
      have hfew : |v.rounded28| < 2 ^ 96 := abs_rounded28_lt hpos hhigh hneg
      have hmany : (2 : ℚ) ^ 96 ≤ 2 ^ 128 - 2 ^ 96 := by norm_num
      linarith [hband.1]
    · obtain ⟨k, hk⟩ : ∃ k : ℕ, v.exponent = k := Int.eq_ofNat_of_zero_le hnonneg
      obtain ⟨hmore, hless⟩ := (hwhole k hk).mp hband
      unfold minMantissa at hlow
      unfold maxMantissa at hhigh
      -- with twenty-two zeros sixteen digits are too small a number, with twenty-four too
      -- large
      have hk22 : ¬ k ≤ 22 := by
        intro hle
        have hpow : 10 ^ k ≤ 10 ^ 22 := Nat.pow_le_pow_right (by decide) hle
        have hmul : v.mantissa * 10 ^ k ≤ v.mantissa * 10 ^ 22 :=
          Nat.mul_le_mul_left _ hpow
        omega
      have hk24 : ¬ 24 ≤ k := by
        intro hle
        have hpow : 10 ^ 24 ≤ 10 ^ k := Nat.pow_le_pow_right (by decide) hle
        have hmul : v.mantissa * 10 ^ 24 ≤ v.mantissa * 10 ^ k :=
          Nat.mul_le_mul_left _ hpow
        omega
      have hk23 : k = 23 := by omega
      subst hk23
      exact ⟨hk, by omega, by omega⟩

section

variable {n p : ℕ} (hpos : 0 < v.mantissa) (hparts : v.decimalParts? = some (n, p))
    (hp : p ≤ 28)
include hpos hparts hp

/-- Parts of at most ninety-six bits are read by `toDecimal` as they are. -/
theorem toDecimal_of_lt (hvalue : v.rounded28 = signed v.negative (n / 10 ^ p))
    (hn : n < 2 ^ 96) :
    ∃ d, v.toDecimal = .ok d ∧ d.toRat = v.rounded28 := by
  have hword : signedWide n = n := signedWide_of_lt (by omega)
  obtain ⟨d, hd, hrat⟩ := (toDecimal_of_some hpos hparts hp).1 (by omega)
  refine ⟨d, hd, ?_⟩
  rw [hrat, hvalue, hword, Int.cast_natCast]

/-- Parts of more bits are refused by `toDecimal`, unless they are the last words. -/
theorem toDecimal_of_le (hlow : 2 ^ 96 ≤ n) (hhigh : n ≤ 2 ^ 128 - 2 ^ 96) :
    v.toDecimal = .error (.overflow (.decimal v.toText)) := by
  refine (toDecimal_of_some hpos hparts hp).2 ?_
  rcases Nat.lt_or_ge n (2 ^ 127) with hlower | hupper
  · rw [signedWide_of_lt hlower]
    omega
  · rw [signedWide_of_le hupper (by omega)]
    omega

/-- The last words are read by `toDecimal` as negative numbers of few bits. -/
theorem toDecimal_of_band (hlow : 2 ^ 128 - 2 ^ 96 < n) (hhigh : n < 2 ^ 128) :
    ∃ d, v.toDecimal = .ok d ∧ d.toRat = signed v.negative ((n - 2 ^ 128) / 10 ^ p) := by
  have hword : signedWide n = n - 2 ^ 128 := signedWide_of_le (by omega) hhigh
  obtain ⟨d, hd, hrat⟩ := (toDecimal_of_some hpos hparts hp).1 (by omega)
  refine ⟨d, hd, ?_⟩
  rw [hrat, hword]
  push_cast
  rfl

end

/-- A value has a decimal `toDecimal` if its magnitude, rounded by `rounded28` to
twenty-eight places, has at most ninety-six bits, and the decimal is the rounded value.
All others are refused, but for those in `Wraps` just below `2 ^ 128`, whose decimal is
too small by that much and of the other sign. -/
theorem toDecimal_rounded (hv : v.Normal) :
    (|v.rounded28| ≤ 2 ^ 96 - 1 → ∃ d, v.toDecimal = .ok d ∧ d.toRat = v.rounded28) ∧
    (2 ^ 96 - 1 < |v.rounded28| → ¬ v.Wraps →
      v.toDecimal = .error (.overflow (.decimal v.toText))) ∧
    (v.Wraps → ∃ d, v.toDecimal = .ok d ∧
      d.toRat = v.rounded28 - signed v.negative (2 ^ 128)) := by
  -- nothing is a decimal, and all else has sixteen digits
  rcases hv with rfl | ⟨hlow, hhigh, -⟩
  · have hzero : zero.rounded28 = 0 := by
      show roundTo _ (((0 : ℕ) : ℚ) * 10 ^ (0 : ℤ)) = 0
      rw [Nat.cast_zero, zero_mul, roundTo_zero]
    rw [hzero, abs_zero]
    refine ⟨fun _ => ⟨Decimal96.zero, rfl, ?_⟩, fun hlarge => ?_, fun hband => ?_⟩
    · show (((0 : ℤ) : ℚ) / 10 ^ 0) = 0
      norm_num
    · exact absurd hlarge (by norm_num)
    · exact absurd hband.1 (by decide)
  have hpos : 0 < v.mantissa := Nat.lt_of_lt_of_le (by decide) hlow
  have hwraps := wraps_iff hlow hhigh
  -- the magnitude is no word, or it is one that the sign bit is looked for in
  rcases exists_decimalParts? hpos hhigh with ⟨hparts, hlarge⟩ | ⟨n, p, hparts,
    hvalue, hp, hn, hbits⟩
  · have hrefused := toDecimal_of_none hpos hparts
    refine ⟨fun hfits => ?_, fun _ _ => hrefused, fun hband => ?_⟩
    · exact absurd (hlarge.trans hfits) (by norm_num)
    · exact absurd (hwraps.mp hband).2 (not_lt.mpr hlarge)
  rcases Nat.lt_or_ge n (2 ^ 96) with hfew | hmany
  · -- a number that fits
    have hfits : |v.rounded28| ≤ 2 ^ 96 - 1 := by
      have hle : (n : ℚ) + 1 ≤ 2 ^ 96 := by exact_mod_cast hfew
      have habs := abs_signed_div_le v.negative n p
      rw [← hvalue] at habs
      linarith
    refine ⟨fun _ => toDecimal_of_lt hpos hparts hp hvalue hfew, fun hlarge => ?_,
      fun hband => ?_⟩
    · exact absurd hfits (not_le.mpr hlarge)
    · have hgap : (2 : ℚ) ^ 96 - 1 ≤ 2 ^ 128 - 2 ^ 96 := by norm_num
      linarith [(hwraps.mp hband).1]
  · -- a whole number that does not
    obtain rfl : p = 0 := by omega
    rw [pow_zero, div_one] at hvalue
    have habs : |v.rounded28| = n := by rw [hvalue, abs_signed, Nat.abs_cast]
    -- among whole numbers, the values in question are those of the last words
    have hband : v.Wraps ↔ 2 ^ 128 - 2 ^ 96 < n := by
      rw [hwraps, habs, ← cast_bandStart]
      norm_cast
      exact and_iff_left hn
    refine ⟨fun hfits => ?_, fun _ hnot => ?_, fun hwrap => ?_⟩
    · have hle : (2 : ℚ) ^ 96 ≤ n := by exact_mod_cast hmany
      linarith
    · rw [hband] at hnot
      exact toDecimal_of_le hpos hparts hp hmany (Nat.not_lt.mp hnot)
    · obtain ⟨d, hd, hrat⟩ := toDecimal_of_band hpos hparts hp (hband.mp hwrap) hn
      refine ⟨d, hd, ?_⟩
      rw [hrat, hvalue, pow_zero, div_one]
      cases v.negative with
      | false => rfl
      | true =>
        show -((n : ℚ) - 2 ^ 128) = -n - -2 ^ 128
        ring

/-- Of the small value `-1234567890123456e-40` four digits are left, the last of them
rounded up. -/
theorem toDecimal_rounded_small :
    IssuedValue.Normal ⟨true, 1234567890123456, -40⟩ ∧
    ∃ d, toDecimal ⟨true, 1234567890123456, -40⟩ = .ok d ∧ d.toRat = -1235 / 10 ^ 28 := by
  have hnormal : IssuedValue.Normal ⟨true, 1234567890123456, -40⟩ := by decide
  have hvalue : rounded28 ⟨true, 1234567890123456, -40⟩ = -1235 / 10 ^ 28 := by
    have hround := roundPlaces_of_lt (k := 12) (by decide) 1234567890123456
    have hleft : roundOff 12 1234567890123456 = 1235 := by decide
    rw [hleft] at hround
    rw [rounded28_eq, neg_div]
    exact congrArg Neg.neg hround
  have hfits : |rounded28 ⟨true, 1234567890123456, -40⟩| ≤ 2 ^ 96 - 1 := by
    rw [hvalue, abs_le]
    norm_num
  have hread := (toDecimal_rounded hnormal).1 hfits
  rw [hvalue] at hread
  exact ⟨hnormal, hread⟩

/-- The last value below `2 ^ 128` has far too many bits, and has a decimal of the other
sign. -/
theorem toDecimal_wraps :
    IssuedValue.Normal ⟨false, 3402823669209384, 23⟩ ∧
    2 ^ 96 - 1 < |rounded28 ⟨false, 3402823669209384, 23⟩| ∧
    ∃ d, toDecimal ⟨false, 3402823669209384, 23⟩ = .ok d ∧
      d.mantissa = -63463374607431768211456 ∧ d.scale = 0 := by
  refine ⟨by decide, ?_, ⟨-63463374607431768211456, 0, by decide, by decide⟩, rfl,
    rfl, rfl⟩
  have hvalue := rounded28_of_whole (v := ⟨false, 3402823669209384, 23⟩) (k := 23) rfl
  rw [hvalue, abs_signed, Nat.abs_cast]
  norm_num

end IssuedValue

end XrpLedger
