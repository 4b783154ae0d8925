import XrpLedger.Proofs.NumberLiterals
import XrpLedger.Proofs.RationalRounding

/-!
# Correct rounding

An issued value is the number it is made of, rounded once: to sixteen digits, halves away
from zero, whatever digits and powers of ten the number was spelled with. Only then is it
decided whether the number is too small or too large.

- `Literal.toRat`: the number that a literal names.
- `IssuedValue.Rounded`: what is to become of a number.
- `IssuedValue.rounded_ofScaled`, `IssuedValue.rounded_literal`: what does become of it.
- `IssuedValue.ofText_rounded`: a text is a literal and is rounded correctly, or it is
  refused.
-/

namespace XrpLedger

open Text.Decimal (natural)

/-- The number that a literal names. -/
def Literal.toRat (l : Literal) : ℚ :=
  signed l.sign.isMinus
    ((natural l.whole + natural l.fractionDigits / 10 ^ l.fractionDigits.length) *
      10 ^ l.exponent)

/-- The digits of a literal are those of the whole number `mantissa`, shifted by the
places behind the point. -/
theorem Literal.toRat_eq (l : Literal) :
    l.toRat = signed l.sign.isMinus
      (l.mantissa * 10 ^ (l.exponent - (l.fractionDigits.length : ℤ))) := by
  have hten : (10 : ℚ) ≠ 0 := by norm_num
  have hpow : (10 : ℚ) ^ l.fractionDigits.length ≠ 0 := pow_ne_zero _ hten
  rw [toRat, mantissa, Text.Decimal.natural_append, zpow_sub₀ hten, zpow_natCast]
  congr 1
  push_cast
  field_simp

/-- No text has more characters than octets. -/
theorem length_toList_le (text : String) : text.toList.length ≤ text.utf8ByteSize := by
  obtain ⟨cs, rfl⟩ : ∃ cs, text = String.ofList cs :=
    ⟨text.toList, String.ofList_toList.symm⟩
  rw [String.toList_ofList]
  induction cs with
  | nil => exact Nat.zero_le _
  | cons c cs ih =>
    have happend : String.ofList (c :: cs) = String.singleton c ++ String.ofList cs := by
      rw [String.singleton_eq_ofList, ← String.ofList_append]
      rfl
    have hpos := Char.utf8Size_pos c
    rw [happend, String.utf8ByteSize_append, String.utf8ByteSize_singleton,
      List.length_cons]
    omega

/-- The digits of a literal are some of its `chars`. -/
theorem Literal.length_digits_le (l : Literal) :
    l.whole.length + l.fractionDigits.length ≤ l.chars.length := by
  have hnumber : l.whole.length + l.fractionDigits.length ≤ l.numberChars.length := by
    unfold fractionDigits numberChars
    split
    next hnone => simp [hnone]
    next ds hds => simp [hds]
  unfold chars
  split
  · rw [List.length_append]
    omega
  · rw [List.length_append, List.length_append]
    omega

namespace IssuedValue

/-- What is to become of the number `q` once it is rounded to sixteen digits: nothing if
it is then below the least value, a refusal that names it if it is above the greatest, and
else the value that is the rounded number. -/
structure Rounded (q : ℚ) (outcome : Except CodecError IssuedValue) : Prop where
  nothing : q = 0 ∨ |roundDigits 16 q| < 10 ^ (-81 : ℤ) → outcome = .ok zero
  tooLarge : 9999999999999999 * 10 ^ 80 < |roundDigits 16 q| →
    ∃ (m : Nat) (e : Int), outcome = .error (.overflow (.issuedValue m e)) ∧
      |roundDigits 16 q| = m * 10 ^ e
  inRange : q ≠ 0 → 10 ^ (-81 : ℤ) ≤ |roundDigits 16 q| →
    |roundDigits 16 q| ≤ 9999999999999999 * 10 ^ 80 →
    ∃ v, outcome = .ok v ∧ v.Normal ∧ v.toRat = roundDigits 16 q

/-! ## Magnitudes -/

variable {m : Nat} {e : Int}

/-- A mantissa of sixteen digits is below the least value exactly if its exponent is below
`minExponent`. -/
theorem magnitude_lt_iff (hlow : minMantissa ≤ m) (hhigh : m ≤ maxMantissa) :
    (m : ℚ) * 10 ^ e < 10 ^ (-81 : ℤ) ↔ e < minExponent := by
  have hten : (10 : ℚ) ≠ 0 := by norm_num
  unfold minExponent
  constructor
  · intro h
    by_contra hexponent
    -- sixteen digits at the least exponent are not below the least value
    have hlow' : (10 : ℚ) ^ (15 : ℤ) ≤ m := by
      rw [minMantissa_eq] at hlow
      exact_mod_cast hlow
    have hle : (10 : ℚ) ^ (-81 : ℤ) ≤ m * 10 ^ e := by
      calc (10 : ℚ) ^ (-81 : ℤ) = 10 ^ (15 : ℤ) * 10 ^ (-96 : ℤ) := by
            rw [← zpow_add₀ hten]; rfl
        _ ≤ m * 10 ^ e := by
          gcongr
          · norm_num
          · omega
    exact absurd h (not_lt.mpr hle)
  · intro hexponent
    -- below the least exponent, even the greatest mantissa is too small
    have hhigh' : (m : ℚ) < 10 ^ (16 : ℤ) := by
      have hlt : m < 10 ^ 16 := Nat.lt_of_le_of_lt hhigh (by decide)
      exact_mod_cast hlt
    calc (m : ℚ) * 10 ^ e < 10 ^ (16 : ℤ) * 10 ^ e := by gcongr
      _ ≤ 10 ^ (16 : ℤ) * 10 ^ (-97 : ℤ) := by
        gcongr
        · norm_num
        · omega
      _ = 10 ^ (-81 : ℤ) := by rw [← zpow_add₀ hten]; rfl

/-- A mantissa of sixteen digits is above the greatest value exactly if its exponent is
above `maxExponent`. -/
theorem lt_magnitude_iff (hlow : minMantissa ≤ m) (hhigh : m ≤ maxMantissa) :
    9999999999999999 * 10 ^ 80 < (m : ℚ) * 10 ^ e ↔ maxExponent < e := by
  unfold maxExponent
  constructor
  · intro h
    by_contra hexponent
    have hhigh' : (m : ℚ) ≤ 9999999999999999 := by
      unfold maxMantissa at hhigh
      exact_mod_cast hhigh
    have hle : (m : ℚ) * 10 ^ e ≤ 9999999999999999 * 10 ^ (80 : ℤ) := by
      gcongr
      · norm_num
      · omega
    exact absurd h (not_lt.mpr hle)
  · intro hexponent
    -- above the greatest exponent, even the least mantissa is too large
    have hlow' : (1000000000000000 : ℚ) ≤ m := by
      unfold minMantissa at hlow
      exact_mod_cast hlow
    calc (9999999999999999 : ℚ) * 10 ^ 80 < 1000000000000000 * 10 ^ (81 : ℤ) := by
          norm_num
      _ ≤ m * 10 ^ e := by
        gcongr
        · norm_num
        · omega

/-! ## Values -/

/-- A mantissa and an exponent are `Rounded` by `ofScaled` as the number that they stand
for. -/
theorem rounded_ofScaled (negative : Bool) (m : Nat) (e : Int) :
    Rounded (signed negative (m * 10 ^ e)) (ofScaled negative m e) := by
  -- nothing is rounded to nothing, so let there be digits
  by_cases hm : m = 0
  · subst hm
    have hzero : signed negative ((0 : Nat) * 10 ^ e) = 0 := by
      rw [signed_eq_zero, Nat.cast_zero, zero_mul]
    rw [hzero]
    refine ⟨fun _ => rfl, fun hlarge => ?_, fun hne => absurd rfl hne⟩
    rw [roundDigits, roundTo_zero, abs_zero] at hlarge
    exact absurd hlarge (by norm_num)
  have hscale : ofScaled negative m e =
      if maxExponent < (scale m e).2 then
        .error (.overflow (.issuedValue (scale m e).1 (scale m e).2))
      else if (scale m e).2 < minExponent then .ok zero
      else .ok ⟨negative, (scale m e).1, (scale m e).2⟩ := by
    rw [ofScaled, if_neg hm]
  have hround : roundDigits 16 (signed negative (m * 10 ^ e)) =
      signed negative ((scale m e).1 * 10 ^ (scale m e).2) := by
    rw [roundDigits_signed, roundDigits_scale hm]
  obtain ⟨hlow, hhigh⟩ := scale_mantissa hm e
  generalize scale m e = p at hscale hround hlow hhigh
  obtain ⟨mantissa, exponent⟩ := p
  have hmagnitude : |roundDigits 16 (signed negative (m * 10 ^ e))| =
      (mantissa : ℚ) * 10 ^ exponent := by
    rw [hround, abs_signed, abs_of_nonneg (by positivity)]
  -- the size of the rounded number is told by its exponent alone
  have hsmall := magnitude_lt_iff (e := exponent) hlow hhigh
  have hlarge := lt_magnitude_iff (e := exponent) hlow hhigh
  rw [← hmagnitude] at hsmall hlarge
  rw [hscale]
  simp only
  constructor
  · rintro (hzero | hless)
    · have hne : (m : ℚ) * 10 ^ e ≠ 0 :=
        mul_ne_zero (Nat.cast_ne_zero.mpr hm) (zpow_ne_zero e (by norm_num))
      exact absurd (signed_eq_zero.mp hzero) hne
    · have hexponent := hsmall.mp hless
      have hnot : ¬ maxExponent < exponent := by
        unfold minExponent at hexponent
        unfold maxExponent
        omega
      rw [if_neg hnot, if_pos hexponent]
  · intro hmore
    exact ⟨mantissa, exponent, if_pos (hlarge.mp hmore), hmagnitude⟩
  · intro _ hleast hmost
    have hexponent : ¬ maxExponent < exponent :=
      fun h => absurd (hlarge.mpr h) (not_lt.mpr hmost)
    have hexponent' : ¬ exponent < minExponent :=
      fun h => absurd (hsmall.mpr h) (not_lt.mpr hleast)
    refine ⟨⟨negative, mantissa, exponent⟩, ?_, ?_, hround.symm⟩
    · rw [if_neg hexponent, if_neg hexponent']
    · exact .inr ⟨hlow, hhigh, not_lt.mp hexponent', not_lt.mp hexponent⟩

/-- A literal is `Rounded` by `ofText` as the number `toRat` that it names, all of its
digits counted. -/
theorem rounded_literal {text : String} {l : Literal} (htext : l.chars = text.toList)
    (hfits : l.Fits) (hsize : text.utf8ByteSize ≤ 2 ^ 62) :
    Rounded l.toRat (ofText text) := by
  have hroom : l.whole.length + l.fractionDigits.length ≤ 2 ^ 62 := by
    calc l.whole.length + l.fractionDigits.length ≤ l.chars.length := l.length_digits_le
      _ = text.toList.length := by rw [htext]
      _ ≤ text.utf8ByteSize := length_toList_le text
      _ ≤ 2 ^ 62 := hsize
  rw [ofText_literal htext hfits hroom, l.toRat_eq]
  exact rounded_ofScaled _ _ _

/-- A text that is no `Literal` with an exponent in range is refused by `ofText` as
malformed, and a literal is `Rounded` as the number that it names. So is a mantissa with
an exponent by `ofScaled`. -/
theorem ofText_rounded (text : String) (hsize : text.utf8ByteSize ≤ 2 ^ 62) :
    ((¬ ∃ l : Literal, l.chars = text.toList ∧ l.Fits) →
      ofText text = .error (.invalidAmount (.malformed text))) ∧
    (∀ l : Literal, l.chars = text.toList → l.Fits → Rounded l.toRat (ofText text)) ∧
    ∀ (negative : Bool) (m : Nat) (e : Int),
      Rounded (signed negative (m * 10 ^ e)) (ofScaled negative m e) := by
  refine ⟨fun hnone => ?_, fun l htext hfits => rounded_literal htext hfits hsize,
    rounded_ofScaled⟩
  by_contra hread
  exact hnone (exists_literal hread)

/-- The seventeenth digit of the literal `-.12345678901234565E+2` rounds it, away from
zero. -/
theorem ofText_rounded_seventeenDigits :
    "-.12345678901234565E+2".utf8ByteSize ≤ 2 ^ 62 ∧
    Rounded (-12345678901234565 / 10 ^ 15) (ofText "-.12345678901234565E+2") := by
  have hsize : "-.12345678901234565E+2".utf8ByteSize ≤ 2 ^ 62 := by decide +kernel
  let power : PowerOfTen :=
    ⟨'E', .plus, ['2'], rfl, by simp, List.forall_mem_singleton.mpr rfl⟩
  let l : Literal := ⟨.minus, [], some (Nat.toDigits 10 12345678901234565),
    some power, by simp, Text.isDigit_toDigits _, .inr Nat.toDigits_ne_nil⟩
  have hrounded := (ofText_rounded _ hsize).2.1 l (by decide +kernel) (by decide +kernel)
  have hvalue : l.toRat = -12345678901234565 / 10 ^ 15 := by
    have hmantissa : l.mantissa = 12345678901234565 := by decide +kernel
    have hexponent : l.exponent - (l.fractionDigits.length : ℤ) = -15 := by decide +kernel
    rw [l.toRat_eq, hmantissa, hexponent]
    show -(((12345678901234565 : ℕ) : ℚ) * 10 ^ (-15 : ℤ)) = _
    norm_num
  rw [hvalue] at hrounded
  exact ⟨hsize, hrounded⟩

end IssuedValue

end XrpLedger
