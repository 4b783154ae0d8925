import XrpLedger.Proofs.RationalRounding

/-!
# The order of issued values

Issued values are compared by sign, then by exponent, then by mantissa. For normal values
this is the order of the numbers that they count, since all mantissas but that of nothing
have sixteen digits.

- `IssuedValue.compareMagnitude_eq`, `IssuedValue.compare_eq`: the order of magnitudes and
  of values.
- `IssuedValue.toRat_inj`: a number is counted by one normal value only.
- `IssuedValue.toRat_neg`, `IssuedValue.neg_involutive`: the value with the other sign.
- `IssuedValue.compare_numeric`: all of it, and that the other signs reverse it.
-/

namespace XrpLedger.IssuedValue

variable {v a b : IssuedValue}

/-! ## Magnitudes -/

/-- The number that a value counts, without its sign. -/
def magnitude (v : IssuedValue) : ℚ :=
  v.mantissa * 10 ^ v.exponent

/-- The number `toRat` is the `magnitude` with the sign. -/
theorem toRat_eq (v : IssuedValue) : v.toRat = signed v.negative v.magnitude :=
  rfl

theorem magnitude_of_isZero (h : v.isZero = true) : v.magnitude = 0 := by
  have hmantissa : v.mantissa = 0 := eq_of_beq h
  rw [magnitude, hmantissa, Nat.cast_zero, zero_mul]

/-- All but nothing have a positive `magnitude`. -/
theorem magnitude_pos (h : v.isZero = false) : 0 < v.magnitude := by
  have hmantissa : 0 < v.mantissa := Nat.pos_of_ne_zero (ne_of_beq_false h)
  unfold magnitude
  positivity

/-- Only nothing has no `magnitude`. -/
theorem magnitude_eq_zero : v.magnitude = 0 ↔ v.isZero = true := by
  constructor
  · intro h
    rw [← Bool.not_eq_false]
    intro hzero
    exact (magnitude_pos hzero).ne' h
  · exact magnitude_of_isZero

theorem magnitude_nonneg (v : IssuedValue) : 0 ≤ v.magnitude := by
  unfold magnitude
  positivity

/-- There is one normal value of nothing, `zero`. -/
theorem Normal.eq_zero (hv : v.Normal) (h : v.isZero = true) : v = zero := by
  rcases hv with rfl | ⟨hlow, -⟩
  · rfl
  · rw [eq_of_beq h] at hlow
    exact absurd hlow (by decide)

/-- All other normal values have a mantissa of sixteen digits. -/
theorem Normal.mantissa_bounds (hv : v.Normal) (h : v.isZero = false) :
    minMantissa ≤ v.mantissa ∧ v.mantissa ≤ maxMantissa := by
  rcases hv with rfl | ⟨hlow, hhigh, -⟩
  · cases h
  · exact ⟨hlow, hhigh⟩

/-- Nothing has no negative form among the `Normal` values. -/
theorem Normal.isZero_of_negative (hv : v.Normal) (h : v.negative = true) :
    v.isZero = false := by
  cases hzero : v.isZero with
  | false => rfl
  | true =>
    rw [hv.eq_zero hzero] at h
    cases h

/-- Of sixteen digits those with the greater exponent have the greater `magnitude`. -/
theorem magnitude_lt_of_exponent_lt (hhigh : a.mantissa ≤ maxMantissa)
    (hlow : minMantissa ≤ b.mantissa) (h : a.exponent < b.exponent) :
    a.magnitude < b.magnitude := by
  have hten : (10 : ℚ) ≠ 0 := by norm_num
  have hhigh' : (a.mantissa : ℚ) < 10 ^ 16 := by
    have hlt : a.mantissa < 10 ^ 16 := Nat.lt_of_le_of_lt hhigh (by decide)
    exact_mod_cast hlt
  have hlow' : (10 : ℚ) ^ 15 ≤ b.mantissa := by
    rw [minMantissa_eq] at hlow
    exact_mod_cast hlow
  -- one more in the exponent makes up for any sixteen digits
  calc a.magnitude < 10 ^ 16 * 10 ^ a.exponent := by
        unfold magnitude
        gcongr
    _ = 10 ^ 15 * 10 ^ (a.exponent + 1) := by
        rw [zpow_add_one₀ hten]
        ring
    _ ≤ b.magnitude := by
        unfold magnitude
        gcongr
        · norm_num
        · omega

/-- With the same exponent, those with the greater mantissa have the
greater `magnitude`. -/
theorem magnitude_lt_of_mantissa_lt (hexponent : a.exponent = b.exponent)
    (h : a.mantissa < b.mantissa) : a.magnitude < b.magnitude := by
  have h' : (a.mantissa : ℚ) < b.mantissa := by exact_mod_cast h
  unfold magnitude
  rw [hexponent]
  gcongr

/-- The exponents tell which `magnitude` is the greater, or else the mantissas. -/
theorem compare_magnitude (ha : minMantissa ≤ a.mantissa ∧ a.mantissa ≤ maxMantissa)
    (hb : minMantissa ≤ b.mantissa ∧ b.mantissa ≤ maxMantissa) :
    Ord.compare a.magnitude b.magnitude =
      (Ord.compare a.exponent b.exponent).then (Ord.compare a.mantissa b.mantissa) := by
  -- on the exponents first, as the code compares
  rcases lt_trichotomy a.exponent b.exponent with hlt | heq | hgt
  · rw [compare_lt_iff_lt.mpr hlt]
    exact compare_lt_iff_lt.mpr (magnitude_lt_of_exponent_lt ha.2 hb.1 hlt)
  · rw [compare_eq_iff_eq.mpr heq]
    show _ = Ord.compare a.mantissa b.mantissa
    rcases lt_trichotomy a.mantissa b.mantissa with hlt | hsame | hgt
    · rw [compare_lt_iff_lt.mpr hlt]
      exact compare_lt_iff_lt.mpr (magnitude_lt_of_mantissa_lt heq hlt)
    · rw [compare_eq_iff_eq.mpr hsame]
      exact compare_eq_iff_eq.mpr (by rw [magnitude, magnitude, heq, hsame])
    · rw [compare_gt_iff_gt.mpr hgt]
      exact compare_gt_iff_gt.mpr (magnitude_lt_of_mantissa_lt heq.symm hgt)
  · rw [compare_gt_iff_gt.mpr hgt]
    exact compare_gt_iff_gt.mpr (magnitude_lt_of_exponent_lt hb.2 ha.1 hgt)

/-- Normal values are compared by `compareMagnitude` as their `magnitude` is. -/
theorem compareMagnitude_eq (ha : a.Normal) (hb : b.Normal) :
    compareMagnitude a b = Ord.compare a.magnitude b.magnitude := by
  unfold compareMagnitude
  -- nothing is less than all else, and the others have sixteen digits
  cases hazero : a.isZero with
  | true =>
    rw [magnitude_of_isZero hazero]
    cases hbzero : b.isZero with
    | true => exact (compare_eq_iff_eq.mpr (magnitude_of_isZero hbzero).symm).symm
    | false => exact (compare_lt_iff_lt.mpr (magnitude_pos hbzero)).symm
  | false =>
    cases hbzero : b.isZero with
    | true =>
      rw [magnitude_of_isZero hbzero]
      exact (compare_gt_iff_gt.mpr (magnitude_pos hazero)).symm
    | false =>
      exact (compare_magnitude (ha.mantissa_bounds hazero)
        (hb.mantissa_bounds hbzero)).symm

/-- Of normal values a `magnitude` has one exponent and one mantissa. -/
theorem parts_eq_of_magnitude_eq (ha : a.Normal) (hb : b.Normal)
    (h : a.magnitude = b.magnitude) :
    a.exponent = b.exponent ∧ a.mantissa = b.mantissa := by
  have hzero : a.isZero = b.isZero := by
    rw [Bool.eq_iff_iff, ← magnitude_eq_zero, ← magnitude_eq_zero, h]
  cases hbzero : b.isZero with
  | true =>
    rw [ha.eq_zero (hzero.trans hbzero), hb.eq_zero hbzero]
    exact ⟨rfl, rfl⟩
  | false =>
    have hcompare := compare_magnitude (ha.mantissa_bounds (hzero.trans hbzero))
      (hb.mantissa_bounds hbzero)
    rw [compare_eq_iff_eq.mpr h] at hcompare
    obtain ⟨hexponent, hmantissa⟩ := Ordering.then_eq_eq.mp hcompare.symm
    exact ⟨compare_eq_iff_eq.mp hexponent, compare_eq_iff_eq.mp hmantissa⟩

/-! ## Comparison -/

/-- The `magnitude` of a value is the absolute value of its number. -/
theorem abs_toRat (v : IssuedValue) : |v.toRat| = v.magnitude := by
  rw [toRat_eq, abs_signed, abs_of_nonneg v.magnitude_nonneg]

/-- The sign of a normal value is that of its number `toRat`. -/
theorem toRat_lt_zero (hv : v.Normal) : v.toRat < 0 ↔ v.negative = true := by
  rw [toRat_eq]
  cases hnegative : v.negative with
  | false => exact iff_of_false v.magnitude_nonneg.not_gt Bool.false_ne_true
  | true =>
    have hpos := magnitude_pos (hv.isZero_of_negative hnegative)
    exact iff_of_true (neg_neg_of_pos hpos) rfl

theorem toRat_nonneg (hv : v.Normal) (h : v.negative = false) : 0 ≤ v.toRat := by
  rw [← not_lt, toRat_lt_zero hv, h]
  exact Bool.false_ne_true

/-- Normal values that count the same number `toRat` are the same. -/
theorem toRat_inj (ha : a.Normal) (hb : b.Normal) : a.toRat = b.toRat ↔ a = b := by
  constructor
  · intro h
    have hsign : a.negative = b.negative := by
      rw [Bool.eq_iff_iff, ← toRat_lt_zero ha, ← toRat_lt_zero hb, h]
    have hmagnitude : a.magnitude = b.magnitude := by
      rw [← abs_toRat, ← abs_toRat, h]
    obtain ⟨hexponent, hmantissa⟩ := parts_eq_of_magnitude_eq ha hb hmagnitude
    cases a
    cases b
    cases hsign
    cases hexponent
    cases hmantissa
    rfl
  · rintro rfl
    rfl

theorem compare_neg_neg (x y : ℚ) : Ord.compare (-x) (-y) = Ord.compare y x := by
  rcases lt_trichotomy x y with hlt | rfl | hgt
  · rw [compare_gt_iff_gt.mpr hlt, compare_gt_iff_gt.mpr (neg_lt_neg hlt)]
  · rw [compare_eq_iff_eq.mpr rfl, compare_eq_iff_eq.mpr rfl]
  · rw [compare_lt_iff_lt.mpr hgt, compare_lt_iff_lt.mpr (neg_lt_neg hgt)]

/-- Normal values are ordered by `compare` as the numbers `toRat` that they count. -/
theorem compare_eq (ha : a.Normal) (hb : b.Normal) :
    compare a b = Ord.compare a.toRat b.toRat := by
  unfold compare
  -- on the signs: different ones decide alone
  cases hanegative : a.negative with
  | false =>
    cases hbnegative : b.negative with
    | false =>
      rw [toRat_eq, toRat_eq, hanegative, hbnegative]
      exact compareMagnitude_eq ha hb
    | true =>
      have hgt : b.toRat < a.toRat :=
        lt_of_lt_of_le ((toRat_lt_zero hb).mpr hbnegative) (toRat_nonneg ha hanegative)
      exact (compare_gt_iff_gt.mpr hgt).symm
  | true =>
    cases hbnegative : b.negative with
    | false =>
      have hlt : a.toRat < b.toRat :=
        lt_of_lt_of_le ((toRat_lt_zero ha).mpr hanegative) (toRat_nonneg hb hbnegative)
      exact (compare_lt_iff_lt.mpr hlt).symm
    | true =>
      -- the greater magnitude is the smaller number
      rw [toRat_eq, toRat_eq, hanegative, hbnegative]
      show compareMagnitude b a = Ord.compare (-a.magnitude) (-b.magnitude)
      rw [compare_neg_neg]
      exact compareMagnitude_eq hb ha

/-! ## The other sign -/

/-- The value `neg` counts the negative number. -/
theorem toRat_neg (v : IssuedValue) : v.neg.toRat = -v.toRat := by
  unfold neg
  -- the sign of nothing does not change, and need not
  cases hzero : v.isZero with
  | true =>
    have hnothing : v.toRat = 0 := by
      rw [toRat_eq, signed_eq_zero, magnitude_of_isZero hzero]
    rw [if_pos rfl, hnothing, neg_zero]
  | false =>
    rw [if_neg Bool.false_ne_true]
    show signed (!v.negative) v.magnitude = -signed v.negative v.magnitude
    cases v.negative with
    | false => rfl
    | true => exact (neg_neg v.magnitude).symm

/-- The other sign of the other sign is the sign itself, for `neg`. -/
theorem neg_involutive : Function.Involutive neg := by
  intro v
  unfold neg
  cases hzero : v.isZero with
  | true => rw [if_pos rfl, hzero, if_pos rfl]
  | false =>
    have hzero' : isZero { v with negative := !v.negative } = false := hzero
    rw [if_neg Bool.false_ne_true, hzero', if_neg Bool.false_ne_true, Bool.not_not]

/-- Normal values are ordered by `compare` as the numbers `toRat` that they count, equal
only to themselves, and in the reverse order with the other signs of `neg`. -/
theorem compare_numeric (ha : a.Normal) (hb : b.Normal) :
    compare a b = Ord.compare a.toRat b.toRat ∧
    (compare a b = .eq ↔ a = b) ∧
    ((compare a b).isLE = true ↔ (compare b.neg a.neg).isLE = true) ∧
    a.neg.toRat = -a.toRat ∧ a.neg.neg = a ∧ zero.neg = zero := by
  have hreverse : compare b.neg a.neg = compare a b := by
    rw [compare_eq (normal_neg hb) (normal_neg ha), toRat_neg, toRat_neg, compare_neg_neg,
      compare_eq ha hb]
  refine ⟨compare_eq ha hb, ?_, ?_, toRat_neg a, neg_involutive a, rfl⟩
  · rw [compare_eq ha hb, compare_eq_iff_eq]
    exact toRat_inj ha hb
  · rw [hreverse]

/-- The greater of two negative values has the smaller magnitude, at the
lowest exponents. -/
theorem compare_numeric_lowest :
    Normal ⟨true, 9999999999999999, -96⟩ ∧ Normal ⟨true, 1000000000000000, -95⟩ ∧
    Ord.compare (toRat ⟨true, 9999999999999999, -96⟩)
      (toRat ⟨true, 1000000000000000, -95⟩) = .gt ∧
    (compare ⟨false, 1000000000000000, -95⟩ ⟨false, 9999999999999999, -96⟩).isLE =
    false := by
  have ha : Normal ⟨true, 9999999999999999, -96⟩ := by decide
  have hb : Normal ⟨true, 1000000000000000, -95⟩ := by decide
  have hgt : compare ⟨true, 9999999999999999, -96⟩ ⟨true, 1000000000000000, -95⟩ =
      .gt := by decide
  obtain ⟨hnumber, -, hreverse, -⟩ := compare_numeric ha hb
  rw [hgt] at hnumber hreverse
  refine ⟨ha, hb, hnumber.symm, ?_⟩
  rw [← Bool.not_eq_true]
  exact fun h => Bool.false_ne_true (hreverse.mpr h)

end XrpLedger.IssuedValue
