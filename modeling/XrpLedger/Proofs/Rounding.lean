import Mathlib.Algebra.Group.Nat.Defs
import Mathlib.Tactic.Ring
import XrpLedger.Amount.IssuedValue

/-!
# Rounding to normal values

Rounding keeps sixteen digits, whatever the number of digits it is given, so that all
issued values are normal which are made by rounding, from text or by a change of sign.

- `IssuedValue.Scaled`: what becomes of a mantissa, in three ways: it is filled with
  zeros, digits are rounded off it, or all of its digits carry.
- `IssuedValue.scaled_scale`: scaling goes one of these ways.
- `IssuedValue.scale_mantissa`: sixteen digits are kept.
- `IssuedValue.normal_ofScaled`, `IssuedValue.normal_ofText`: what is rounded and what is
  parsed is normal.
- `IssuedValue.normal_neg`, `IssuedValue.normal_abs`: changes of sign.
-/

namespace XrpLedger.IssuedValue

variable {m : Nat} {e : Int}

theorem minMantissa_eq : minMantissa = 10 ^ 15 := by decide

/-! ## Dropping digits -/

/-- Of seventeen digits at most, `dropDigits` drops none. -/
theorem dropDigits_of_lt (hm : m < 10 ^ 17) (e : Int) : dropDigits m e = (m, e) := by
  have hbound : ¬ (maxMantissa + 1) * 10 ≤ m := by
    unfold maxMantissa
    omega
  rw [dropDigits, if_neg hbound]

/-- A digit behind seventeen others is dropped by `dropDigits`. -/
theorem dropDigits_of_le (hm : 10 ^ 17 ≤ m) (e : Int) :
    dropDigits m e = dropDigits (m / 10) (e + 1) := by
  have hbound : (maxMantissa + 1) * 10 ≤ m := by
    unfold maxMantissa
    omega
  rw [dropDigits, if_pos hbound]

/-- Digits are dropped by `dropDigits` until seventeen are left. -/
theorem exists_dropDigits (m : Nat) (e : Int) :
    ∃ k : Nat, dropDigits m e = (m / 10 ^ k, e + k) ∧ m / 10 ^ k < 10 ^ 17 ∧
      (k = 0 ∨ 10 ^ 16 ≤ m / 10 ^ k) := by
  -- on the mantissa, which is a tenth of itself after each step
  induction m using Nat.strongRecOn generalizing e with
  | ind m ih =>
    by_cases hm : m < 10 ^ 17
    · exact ⟨0, by simpa using dropDigits_of_lt hm e, by simpa using hm, .inl rfl⟩
    · have hlong : 10 ^ 17 ≤ m := Nat.not_lt.mp hm
      obtain ⟨k, hdrop, hlt, hleft⟩ := ih (m / 10) (by omega) (e + 1)
      have hdiv : m / 10 / 10 ^ k = m / 10 ^ (k + 1) := by
        rw [Nat.div_div_eq_div_mul, Nat.pow_succ, Nat.mul_comm]
      rw [hdiv] at hdrop hlt hleft
      refine ⟨k + 1, ?_, hlt, .inr ?_⟩
      · rw [dropDigits_of_le hlong, hdrop, Nat.cast_succ]
        congr 1
        ring
      · rcases hleft with rfl | hleft
        · rw [Nat.zero_add, Nat.pow_one]
          omega
        · exact hleft

/-- Whether digits behind sixteen others are there to be dropped or not is the same for
`dropDigits`. -/
theorem dropDigits_mul_pow_add {k r : Nat} (hm : 10 ^ 16 ≤ m)
    (hr : r < 10 ^ k) (e : Int) :
    dropDigits (m * 10 ^ k + r) e = dropDigits m (e + k) := by
  -- on the digits behind, of which the last is dropped
  induction k generalizing r e with
  | zero =>
    have hzero : r = 0 := Nat.lt_one_iff.mp hr
    rw [hzero, Nat.pow_zero, Nat.mul_one, Nat.add_zero, Nat.cast_zero, Int.add_zero]
  | succ k ih =>
    have hpow : 0 < 10 ^ k := Nat.pow_pos (by decide)
    have hmore : m ≤ m * 10 ^ k := Nat.le_mul_of_pos_right m hpow
    have hsplit : m * 10 ^ (k + 1) + r = m * 10 ^ k * 10 + r := by ring
    have hdiv : (m * 10 ^ k * 10 + r) / 10 = m * 10 ^ k + r / 10 := by omega
    have hexponent : e + 1 + (k : Int) = e + ((k + 1 : Nat) : Int) := by
      rw [Nat.cast_succ]
      ring
    rw [hsplit, dropDigits_of_le (by omega), hdiv, ih (by omega), hexponent]

/-! ## Filling with zeros -/

theorem fillDigits_of_le (hm : minMantissa ≤ m) (e : Int) : fillDigits m e = (m, e) := by
  have hdone : ¬ (0 < m ∧ m < minMantissa) := by omega
  rw [fillDigits, if_neg hdone]

/-- A mantissa that is short of zeros gets them from `fillDigits`. -/
theorem fillDigits_of_mul_pow {k : Nat} (hlow : minMantissa ≤ m * 10 ^ k)
    (hhigh : m * 10 ^ k ≤ maxMantissa) (e : Int) :
    fillDigits m e = (m * 10 ^ k, e - k) := by
  induction k generalizing m e with
  | zero =>
    rw [Nat.pow_zero, Nat.mul_one] at hlow ⊢
    rw [fillDigits_of_le hlow, Nat.cast_zero, Int.sub_zero]
  | succ k ih =>
    have hmul : m * 10 ^ (k + 1) = m * 10 * 10 ^ k := by ring
    have hpow : 0 < 10 ^ k := Nat.pow_pos (by decide)
    have hten : m * 10 ≤ m * 10 * 10 ^ k := Nat.le_mul_of_pos_right _ hpow
    rw [hmul] at hlow hhigh
    have hshort : 0 < m ∧ m < minMantissa := by
      refine ⟨Nat.pos_of_ne_zero ?_, ?_⟩
      · rintro rfl
        rw [Nat.mul_assoc, Nat.zero_mul] at hlow
        exact absurd hlow (by decide)
      · unfold maxMantissa at hhigh
        unfold minMantissa
        omega
    rw [fillDigits, if_pos hshort, ih hlow hhigh, hmul, Nat.cast_succ]
    congr 1
    ring

/-- A positive mantissa of at most sixteen digits is short of zeros, if anything. -/
theorem exists_mul_pow {m : Nat} (hm : 0 < m) (hhigh : m ≤ maxMantissa) :
    ∃ k : Nat, minMantissa ≤ m * 10 ^ k ∧ m * 10 ^ k ≤ maxMantissa := by
  by_cases hlow : minMantissa ≤ m
  · exact ⟨0, by simpa using hlow, by simpa using hhigh⟩
  · have hmore : m * 10 ≤ maxMantissa := by
      unfold minMantissa at hlow
      unfold maxMantissa
      omega
    obtain ⟨k, hk⟩ := exists_mul_pow (m := m * 10) (by omega) hmore
    refine ⟨k + 1, ?_⟩
    have hmul : m * 10 ^ (k + 1) = m * 10 * 10 ^ k := by ring
    rw [hmul]
    exact hk
termination_by minMantissa - m
decreasing_by omega

/-! ## Scaling -/

/-- A mantissa that is short of zeros, if anything, is only filled by `scale`. -/
theorem scale_of_mul_pow {k : Nat} (hlow : minMantissa ≤ m * 10 ^ k)
    (hhigh : m * 10 ^ k ≤ maxMantissa) (e : Int) : scale m e = (m * 10 ^ k, e - k) := by
  have hshort : m ≤ maxMantissa :=
    Nat.le_trans (Nat.le_mul_of_pos_right m (Nat.pow_pos (by decide))) hhigh
  have hlt : m < 10 ^ 17 := Nat.lt_of_le_of_lt hshort (by decide)
  unfold scale
  rw [dropDigits_of_lt hlt]
  simp only
  rw [roundDigit, if_pos hshort]
  exact fillDigits_of_mul_pow hlow hhigh e

/-- The mantissa without its last `k` digits, rounded; halves go up. -/
def roundOff (k m : Nat) : Nat :=
  (m + 10 ^ k / 2) / 10 ^ k

theorem half_pow_mul_two {k : Nat} (hk : 0 < k) : 10 ^ k / 2 * 2 = 10 ^ k := by
  obtain ⟨j, rfl⟩ := Nat.exists_eq_succ_of_ne_zero (Nat.ne_of_gt hk)
  omega

/-- Rounding with `roundOff` does not make less of the digits that are left. -/
theorem div_le_roundOff (k m : Nat) : m / 10 ^ k ≤ roundOff k m :=
  Nat.div_le_div_right (Nat.le_add_right _ _)

/-- Rounding with `roundOff` does not make more of all digits. -/
theorem roundOff_le {k : Nat} (hk : 0 < k) (m : Nat) : roundOff k m ≤ m := by
  have hten : 10 ^ 1 ≤ 10 ^ k := Nat.pow_le_pow_right (by decide) hk
  have hmul : m ≤ m * 10 ^ k := Nat.le_mul_of_pos_right m (by omega)
  refine Nat.le_of_lt_succ ((Nat.div_lt_iff_lt_mul (by omega)).mpr ?_)
  rw [Nat.succ_mul]
  omega

/-- What becomes of a positive mantissa that is brought to sixteen digits: it is
filled with zeros, or sixteen digits are left of it and are rounded, which may make
them carry. -/
inductive Scaled (m : Nat) (e : Int) : Nat × Int → Prop where
  | filled (k : Nat) (hlow : minMantissa ≤ m * 10 ^ k)
    (hhigh : m * 10 ^ k ≤ maxMantissa) :
    Scaled m e (m * 10 ^ k, e - k)
  | rounded (k : Nat) (hk : 0 < k) (hlow : 10 ^ 15 ≤ m / 10 ^ k)
    (hhigh : m / 10 ^ k < 10 ^ 16)
    (hround : roundOff k m ≤ maxMantissa) : Scaled m e (roundOff k m, e + k)
  | carried (k : Nat) (hk : 0 < k) (hlow : 10 ^ 15 ≤ m / 10 ^ k)
    (hhigh : m / 10 ^ k < 10 ^ 16)
    (hcarry : roundOff k m = 10 ^ 16) : Scaled m e (minMantissa, e + k + 1)

/-- Rounding a digit that was left for it is rounding all digits at once
with `roundOff`. -/
theorem roundOff_succ (k m : Nat) : roundOff (k + 1) m = (m / 10 ^ k + 5) / 10 := by
  have hpow : 0 < 10 ^ k := Nat.pow_pos (by decide)
  have hhalf : 10 ^ (k + 1) / 2 = 5 * 10 ^ k := by omega
  rw [roundOff, hhalf, ← Nat.add_mul_div_right m 5 hpow,
    Nat.div_div_eq_div_mul, Nat.pow_succ]

/-- What `scale` makes of a mantissa is `Scaled` in one of the three ways. -/
theorem scaled_scale (hm : m ≠ 0) (e : Int) : Scaled m e (scale m e) := by
  -- few digits are filled up, and of many the seventeenth is left to round by
  by_cases hfew : m ≤ maxMantissa
  · obtain ⟨k, hlow, hhigh⟩ := exists_mul_pow (Nat.pos_of_ne_zero hm) hfew
    rw [scale_of_mul_pow hlow hhigh]
    exact .filled k hlow hhigh
  obtain ⟨k, hdrop, hlt, hleft⟩ := exists_dropDigits m e
  have hlong : 10 ^ 16 ≤ m / 10 ^ k := by
    rcases hleft with rfl | hleft
    · rw [Nat.pow_zero, Nat.div_one]
      unfold maxMantissa at hfew
      omega
    · exact hleft
  have hmany : ¬ m / 10 ^ k ≤ maxMantissa := by
    unfold maxMantissa
    omega
  have hdiv : m / 10 ^ (k + 1) = m / 10 ^ k / 10 := by
    rw [Nat.div_div_eq_div_mul, Nat.pow_succ]
  have hleast : 10 ^ 15 ≤ m / 10 ^ (k + 1) := by omega
  have hmost : m / 10 ^ (k + 1) < 10 ^ 16 := by omega
  have hround : (if 5 ≤ m / 10 ^ k % 10 then m / 10 ^ k / 10 + 1 else m / 10 ^ k / 10) =
      roundOff (k + 1) m := by
    rw [roundOff_succ]
    split <;> omega
  have hexponent : e + (k : Int) + 1 = e + ((k + 1 : Nat) : Int) := by
    rw [Nat.cast_succ]
    ring
  unfold scale
  rw [hdrop]
  simp only
  rw [roundDigit, if_neg hmany, hround]
  simp only
  -- the rounded digits are still sixteen, or they carry
  by_cases hhigh : roundOff (k + 1) m ≤ maxMantissa
  · have hmin : minMantissa ≤ roundOff (k + 1) m := by
      rw [roundOff_succ]
      unfold minMantissa
      omega
    rw [if_pos hhigh]
    simp only
    rw [fillDigits_of_le hmin, hexponent]
    exact .rounded (k + 1) (Nat.succ_pos k) hleast hmost hhigh
  · -- seventeen digits round up to the sixteenth power of ten at most
    have hcarry : roundOff (k + 1) m = 10 ^ 16 := by
      rw [roundOff_succ] at hhigh ⊢
      unfold maxMantissa at hhigh
      omega
    have hmin : roundOff (k + 1) m / 10 = minMantissa := by
      rw [hcarry]
      decide
    have hexponent' : e + (k : Int) + 2 = e + ((k + 1 : Nat) : Int) + 1 := by
      rw [← hexponent]
      ring
    rw [if_neg hhigh]
    simp only
    rw [hmin, fillDigits_of_le (Nat.le_refl _), hexponent']
    exact .carried (k + 1) (Nat.succ_pos k) hleast hmost hcarry

/-- The mantissa that `scale` makes has sixteen digits. -/
theorem scale_mantissa (hm : m ≠ 0) (e : Int) :
    minMantissa ≤ (scale m e).1 ∧ (scale m e).1 ≤ maxMantissa := by
  have hscaled := scaled_scale hm e
  generalize scale m e = p at hscaled
  cases hscaled with
  | filled k hlow hhigh => exact ⟨hlow, hhigh⟩
  | rounded k hk hlow hhigh hround =>
    rw [← minMantissa_eq] at hlow
    exact ⟨Nat.le_trans hlow (div_le_roundOff k m), hround⟩
  | carried => exact ⟨Nat.le_refl _, show minMantissa ≤ maxMantissa by decide⟩

/-! ## Makers of values -/

/-- What `ofScaled` makes is `Normal`. -/
theorem normal_ofScaled {negative : Bool} {mantissa : Nat} {exponent : Int}
    {v : IssuedValue} (h : ofScaled negative mantissa exponent = .ok v) : v.Normal := by
  unfold ofScaled at h
  split at h
  · cases h
    exact .inl rfl
  · next hm =>
    have hscale := scale_mantissa hm exponent
    split at h
    next m e heq =>
    rw [heq] at hscale
    split at h
    · cases h
    · next hhigh =>
      split at h
      · cases h
        exact .inl rfl
      · next hlow =>
        cases h
        exact .inr ⟨hscale.1, hscale.2, Int.not_lt.mp hlow, Int.not_lt.mp hhigh⟩

/-- What `ofText` reads is `Normal`. -/
theorem normal_ofText {text : String} {v : IssuedValue} (h : ofText text = .ok v) :
    v.Normal := by
  unfold ofText at h
  simp only at h
  split at h
  · cases h
  · exact normal_ofScaled h

/-- A change of sign by `neg` or `abs` keeps a value `Normal`. -/
theorem normal_neg {v : IssuedValue} (h : v.Normal) : v.neg.Normal := by
  unfold neg
  split
  · exact h
  · next hzero =>
    rcases h with rfl | h
    · exact absurd rfl hzero
    · exact .inr h

theorem normal_abs {v : IssuedValue} (h : v.Normal) : v.abs.Normal := by
  rcases h with rfl | h
  · exact .inl rfl
  · exact .inr h

end XrpLedger.IssuedValue
