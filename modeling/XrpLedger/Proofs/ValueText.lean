import XrpLedger.Proofs.NumberLiterals

/-!
# Texts of issued values

The text of a normal value is a literal that spells its parts, and so the value is read
from its text. The literal may lack the trailing zeros of the mantissa, and rounding puts
them back.

- `IssuedValue.ofScaled_of_mul_pow`: rounding keeps a value that is short of zeros.
- `Literal.Spells`: a literal that spells a value but for zeros, and has none at its end.
- `IssuedValue.exists_spells`: the text of a normal value is such a literal.
- `IssuedValue.ofText_of_spells`, `IssuedValue.ofText_toText`: the value is read from it.
-/

namespace XrpLedger

namespace Literal

/-- There are digits in front of the point. Those behind it, if it is there, do not end in
zero. -/
structure Trimmed (l : Literal) : Prop where
  whole_ne_nil : l.whole ≠ []
  fraction : ∀ ds, l.fraction = some ds → ds ≠ [] ∧ ds.getLast? ≠ some '0'

/-- A literal that spells the parts of a value, but for trailing zeros of the mantissa. -/
structure Spells (l : Literal) (v : IssuedValue) : Prop where
  trimmed : l.Trimmed
  fits : l.Fits
  room : l.whole.length + l.fractionDigits.length ≤ 2 ^ 62
  sign : l.sign.isMinus = v.negative
  parts : ∃ k : Nat, l.mantissa * 10 ^ k = v.mantissa ∧
    l.exponent - l.fractionDigits.length = v.exponent + k

end Literal

namespace IssuedValue

variable {negative : Bool} {m k : Nat} {e : Int} {v : IssuedValue}

/-! ## Rounding of short mantissas -/

/-- A normal value is kept by `ofScaled` if its mantissa is given without some of its
trailing zeros. -/
theorem ofScaled_of_mul_pow {short : Nat} (hnormal : minMantissa ≤ m ∧ m ≤ maxMantissa ∧
      minExponent ≤ e ∧ e ≤ maxExponent) (hshort : short * 10 ^ k = m) :
    ofScaled negative short (e + k) = .ok ⟨negative, m, e⟩ := by
  obtain ⟨hlow, hhigh, hleast, hgreatest⟩ := hnormal
  subst hshort
  have hne : short ≠ 0 := by
    rintro rfl
    rw [Nat.zero_mul] at hlow
    exact absurd hlow (by decide)
  rw [ofScaled, if_neg hne, scale_of_mul_pow hlow hhigh, Int.add_sub_cancel]
  simp only
  rw [if_neg (Int.not_lt.mpr hgreatest), if_neg (Int.not_lt.mpr hleast)]

/-- A literal is read by `ofText` as the normal value that it `Spells`. -/
theorem ofText_of_spells {text : String} {l : Literal} (hv : v.Normal)
    (hspells : l.Spells v) (htext : l.chars = text.toList) : ofText text = .ok v := by
  obtain ⟨k, hvalue, hshift⟩ := hspells.parts
  rw [ofText_literal htext hspells.fits hspells.room, hspells.sign, hshift]
  rcases hv with rfl | hnormal
  -- without digits but zeros, whatever the exponent is
  · have hnothing : l.mantissa = 0 := by
      rcases Nat.mul_eq_zero.mp hvalue with hzero | hzero
      · exact hzero
      · exact absurd hzero (Nat.pos_iff_ne_zero.mp (Nat.pow_pos (by decide)))
    rw [hnothing]
    rfl
  · exact ofScaled_of_mul_pow hnormal hvalue

/-! ## Texts of values -/

/-- The text `toText` of a value is a sign in front of `magnitudeText`. -/
theorem toList_toText (negative : Bool) (hm : 0 < m) (e : Int) :
    (toText ⟨negative, m, e⟩).toList =
      (Text.Sign.ofBool negative).chars ++ magnitudeText ⟨negative, m, e⟩ := by
  have hzero : isZero ⟨negative, m, e⟩ = false := beq_false_of_ne (Nat.ne_of_gt hm)
  rw [toText, hzero, if_neg Bool.false_ne_true, String.toList_ofList]
  cases negative <;> rfl

/-- The literal of a sign and the digits of a number, with more digits behind a point. -/
def literalOf (negative : Bool) (m : Nat) (fraction : Option (List Char))
    (power : Option PowerOfTen) (hfraction : ∀ c ∈ fraction.getD [], c.isDigit = true) :
    Literal where
  sign := .ofBool negative
  whole := Nat.toDigits 10 m
  fraction := fraction
  power := power
  isDigit_whole := Text.isDigit_toDigits m
  isDigit_fraction := hfraction
  some_digit := .inl Nat.toDigits_ne_nil

/-- The power of ten with the digits of a number behind the mark. -/
def powerOf (e : Int) : PowerOfTen where
  mark := 'e'
  sign := .ofBool (decide (e < 0))
  digits := Nat.toDigits 10 e.natAbs
  isPowerMark_mark := rfl
  digits_ne_nil := Nat.toDigits_ne_nil
  isDigit_digits := Text.isDigit_toDigits e.natAbs

/-- The exponent of `powerOf` is the number that it is made from. -/
theorem exponent_powerOf (e : Int) : (powerOf e).exponent = e := by
  rw [PowerOfTen.exponent, powerOf, Text.Decimal.natural_toDigits, Text.Sign.apply_natAbs]

/-- No part of a normal mantissa has more than sixteen digits. -/
theorem length_toDigits_le (hhigh : m ≤ maxMantissa) :
    (Nat.toDigits 10 m).length ≤ 16 := by
  refine (Nat.length_toDigits_le_iff (by decide) (by decide)).mpr ?_
  exact Nat.lt_of_le_of_lt hhigh (by decide)

/-- A `literalOf` digits without a point is `Trimmed`. -/
theorem trimmed_literalOf (negative : Bool) (m : Nat) (power : Option PowerOfTen) :
    (literalOf negative m none power (List.forall_mem_nil _)).Trimmed :=
  ⟨Nat.toDigits_ne_nil, nofun⟩

/-- The text `toText` of a normal value is a literal that `Spells` it. -/
theorem exists_spells (hv : v.Normal) :
    ∃ l : Literal, l.chars = v.toText.toList ∧ l.Spells v := by
  have hnone : (-2 ^ 31 : Int) ≤ 0 ∧ (0 : Int) < 2 ^ 31 := by decide
  have hdigits : ∀ m : Nat, Text.Decimal.natural (Nat.toDigits 10 m ++ []) * 10 ^ 0 =
      m := by
    intro m
    rw [List.append_nil, Text.Decimal.natural_toDigits, Nat.pow_zero, Nat.mul_one]
  rcases hv with rfl | hnormal
  · -- nothing is a digit
    refine ⟨literalOf false 0 none none (List.forall_mem_nil _), by decide +kernel,
      trimmed_literalOf false 0 none, hnone, by decide +kernel, rfl, 0, hdigits 0, rfl⟩
  obtain ⟨negative, m, e⟩ := v
  change minMantissa ≤ m ∧ m ≤ maxMantissa ∧ minExponent ≤ e ∧ e ≤ maxExponent at hnormal
  have hm : 0 < m := Nat.lt_of_lt_of_le (by decide) hnormal.1
  have htext := toList_toText negative hm e
  have hsign : (Text.Sign.ofBool negative).isMinus = negative :=
    Text.Sign.isMinus_ofBool negative
  have hlength := length_toDigits_le hnormal.2.1
  -- sixteen digits are far below what a text may have
  have hroom : (Nat.toDigits 10 m).length + 0 ≤ 2 ^ 62 := by omega
  unfold magnitudeText at htext
  simp only at htext
  by_cases hzero : e = 0
  · -- the digits of the mantissa alone
    subst hzero
    rw [if_pos rfl] at htext
    exact ⟨literalOf negative m none none (List.forall_mem_nil _), htext.symm,
      trimmed_literalOf negative m none, hnone, hroom, hsign, 0, hdigits m, rfl⟩
  rw [if_neg hzero] at htext
  by_cases hplain : isPlain e = true
  · -- a decimal, without the trailing zeros of its fraction
    rw [if_pos hplain] at htext
    simp only [isPlain, Bool.and_eq_true, decide_eq_true_eq] at hplain
    obtain ⟨fraction, k, hfraction, hplaces, hvalue, hnumber⟩ :=
      Text.Decimal.exists_fixedPoint (show 0 < e.natAbs by omega) m
    have hwhole : m / 10 ^ e.natAbs ≤ maxMantissa :=
      Nat.le_trans (Nat.div_le_self _ _) hnormal.2.1
    have hlength' := length_toDigits_le hwhole
    have hroom' : (Nat.toDigits 10 (m / 10 ^ e.natAbs)).length + fraction.length ≤
        2 ^ 62 := by
      omega
    -- the zeros that were trimmed, with the digits left, are the places of the exponent
    have hshift : 0 - (fraction.length : Int) = e + k := by omega
    -- the point stands only in front of digits, and the last of them is not zero
    rcases hnumber with ⟨hnumber, rfl⟩ | ⟨hnumber, hne, hlast⟩
    · rw [hnumber] at htext
      exact ⟨literalOf negative (m / 10 ^ e.natAbs) none none (List.forall_mem_nil _),
        htext.symm, trimmed_literalOf negative _ none, hnone, hroom', hsign,
        k, hvalue, hshift⟩
    · rw [hnumber] at htext
      refine ⟨literalOf negative (m / 10 ^ e.natAbs) (some fraction) none hfraction,
        htext.symm, ⟨Nat.toDigits_ne_nil, ?_⟩, hnone, hroom', hsign, k, hvalue, hshift⟩
      rintro ds hds
      cases hds
      exact ⟨hne, hlast⟩
  · -- the digits and a power of ten behind them
    rw [if_neg hplain, Text.toList_toString, ← List.append_assoc] at htext
    have hexponent := exponent_powerOf e
    -- the exponents of normal values are far inside the range of an exponent in a text
    have hfits : -2 ^ 31 ≤ (powerOf e).exponent ∧ (powerOf e).exponent < 2 ^ 31 := by
      obtain ⟨-, -, hleast, hgreatest⟩ := hnormal
      unfold minExponent at hleast
      unfold maxExponent at hgreatest
      omega
    have hshift : (powerOf e).exponent - ((0 : Nat) : Int) = e + ((0 : Nat) : Int) := by
      rw [hexponent]
      simp
    exact ⟨literalOf negative m none (some (powerOf e)) (List.forall_mem_nil _),
      htext.symm, trimmed_literalOf negative m _, hfits, hroom, hsign, 0,
      hdigits m, hshift⟩

/-- A normal value is read by `ofText` from its text `toText`. -/
theorem ofText_toText (hv : v.Normal) : ofText v.toText = .ok v := by
  obtain ⟨l, htext, hspells⟩ := exists_spells hv
  exact ofText_of_spells hv hspells htext

end IssuedValue

end XrpLedger
