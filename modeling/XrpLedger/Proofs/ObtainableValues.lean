import XrpLedger.Amount.Decimal96
import XrpLedger.Proofs.BuiltTrees

/-!
# Issued values that can be had

Issued values come from rounding, from text, from decimals, from words and from JSON, and
their signs are changed. All of this keeps to the normal values, and each normal value has
one word.

- `IssuedValue.Obtainable`: the values that these ways lead to.
- `IssuedValue.scale_exponent`, `IssuedValue.normal_ofDecimal`: every decimal is in range.
- `IssuedValue.obtainable_iff_normal`: the values that can be had are the normal ones.
- `IssuedValue.obtainable_words`: their parts and their words.
-/

namespace XrpLedger.IssuedValue

/-! ## Decimals -/

/-- The exponent is moved by `scale` by fifteen digits down at most, and up by no more
than the digits of the mantissa. -/
theorem scale_exponent {m n : Nat} (hm : m ≠ 0) (hlt : m < 10 ^ n) (exponent : Int) :
    exponent - 15 ≤ (scale m exponent).2 ∧ (scale m exponent).2 ≤ exponent + n := by
  -- what still has sixteen digits is short of as many as were dropped
  have hdropped : ∀ k : Nat, 10 ^ 15 ≤ m / 10 ^ k → 15 + k < n := by
    intro k hlow
    have hle : 10 ^ 15 * 10 ^ k ≤ m :=
      (Nat.le_div_iff_mul_le (Nat.pow_pos (by decide))).mp hlow
    rw [← Nat.pow_add] at hle
    exact (Nat.pow_lt_pow_iff_right (by decide)).mp (Nat.lt_of_le_of_lt hle hlt)
  have hscaled := scaled_scale hm exponent
  generalize scale m exponent = p at hscaled
  -- the mantissa was filled up with zeros, or rounded, or rounded up to one digit more
  cases hscaled with
  | filled k hlow hhigh =>
    have hpow : 10 ^ k ≤ m * 10 ^ k := Nat.le_mul_of_pos_left _ (Nat.pos_of_ne_zero hm)
    have hmax : maxMantissa < 10 ^ 16 := by decide
    have hk : k < 16 := (Nat.pow_lt_pow_iff_right (by decide)).mp
      (Nat.lt_of_le_of_lt (Nat.le_trans hpow hhigh) hmax)
    show exponent - 15 ≤ exponent - k ∧ exponent - k ≤ exponent + n
    omega
  | rounded k hk hlow =>
    have hn := hdropped k hlow
    show exponent - 15 ≤ exponent + k ∧ exponent + k ≤ exponent + n
    omega
  | carried k hk hlow =>
    have hn := hdropped k hlow
    show exponent - 15 ≤ exponent + k + 1 ∧ exponent + k + 1 ≤ exponent + n
    omega

/-- No `Decimal96` is too large or too small for `ofDecimal`. -/
theorem normal_ofDecimal (d : Decimal96) : (ofDecimal d).Normal := by
  unfold ofDecimal
  split
  · exact normal_zero
  · next hzero =>
    have hm : d.mantissa.natAbs ≠ 0 := fun h => hzero (Int.natAbs_eq_zero.mp h)
    have hlt : d.mantissa.natAbs < 10 ^ 29 := Nat.lt_trans d.natAbs_lt (by decide)
    have hplaces := d.scale_le
    obtain ⟨hmin, hmax⟩ := scale_mantissa hm (-Int.ofNat d.scale)
    obtain ⟨hlow, hhigh⟩ := scale_exponent hm hlt (-Int.ofNat d.scale)
    rw [Int.ofNat_eq_natCast] at hmin hmax hlow hhigh
    refine .inr ⟨hmin, hmax, ?_, ?_⟩
    · show minExponent ≤ (scale d.mantissa.natAbs (-(d.scale : Int))).2
      unfold minExponent
      omega
    · show (scale d.mantissa.natAbs (-(d.scale : Int))).2 ≤ maxExponent
      unfold maxExponent
      omega

/-! ## All ways to a value -/

/-- The values that can be had: what is rounded, parsed, converted or read, and what
changes of sign make of it. -/
inductive Obtainable : IssuedValue → Prop where
  | ofScaled {negative : Bool} {mantissa : Nat} {exponent : Int} {v : IssuedValue}
    (h : IssuedValue.ofScaled negative mantissa exponent = .ok v) : Obtainable v
  | ofText {text : String} {v : IssuedValue} (h : IssuedValue.ofText text = .ok v) :
    Obtainable v
  | ofDecimal (d : Decimal96) : Obtainable (IssuedValue.ofDecimal d)
  | ofWord {word : UInt64} {v : IssuedValue} (h : IssuedValue.ofWord word = .ok v) :
    Obtainable v
  | ofJson {j : Json} {v : IssuedValue} (h : j.readText IssuedValue.ofText = .ok v) :
    Obtainable v
  | ofAmount {j : Json} {a : IssuedAmount} (h : IssuedAmount.ofJson? j = some a) :
    Obtainable a.value
  | neg {v : IssuedValue} (h : Obtainable v) : Obtainable v.neg
  | abs {v : IssuedValue} (h : Obtainable v) : Obtainable v.abs

variable {v : IssuedValue}

/-- Every way to an `Obtainable` value leads to a `Normal` one. -/
theorem Obtainable.normal (h : v.Obtainable) : v.Normal := by
  -- on the way: a change of sign keeps what its value already was
  induction h with
  | ofScaled h => exact normal_ofScaled h
  | ofText h => exact normal_ofText h
  | ofDecimal d => exact normal_ofDecimal d
  | ofWord h => exact (normal_of_ofWord h).1
  | ofJson h =>
    unfold Json.readText at h
    split at h
    · split at h
      · next hparse =>
        cases h
        exact normal_ofText hparse
      · cases h
    · cases h
  | ofAmount h => exact IssuedAmount.normal_ofJson? h
  | neg _ ih => exact normal_neg ih
  | abs _ ih => exact normal_abs ih

/-- The `Obtainable` values are the `Normal` ones, each of which is read by `ofWord` from
its word `toWord`. -/
theorem obtainable_iff_normal : v.Obtainable ↔ v.Normal :=
  ⟨Obtainable.normal, fun h => .ofWord (ofWord_toWord h)⟩

/-- Whatever way a value was had, it is `zero`, the one spelling of nothing, or has
sixteen digits and an exponent in range. It is read by `ofWord` from its word
`toWord`, and no other word is read as it: a word is read exactly if it is the word of
such a value. -/
theorem obtainable_words :
    (∀ v : IssuedValue, v.Obtainable ↔ v = zero ∨
      (10 ^ 15 ≤ v.mantissa ∧ v.mantissa ≤ 10 ^ 16 - 1 ∧ -96 ≤ v.exponent ∧
        v.exponent ≤ 80)) ∧
    (∀ v : IssuedValue, v.Obtainable ↔ ofWord v.toWord = .ok v) ∧
    ∀ (word : UInt64) (v : IssuedValue), ofWord word = .ok v ↔
    v.Obtainable ∧ v.toWord = word := by
  refine ⟨fun v => ?_, fun v => ?_, fun word v => ?_⟩
  · have hmin : minMantissa = 10 ^ 15 := by decide
    have hmax : maxMantissa = 10 ^ 16 - 1 := by decide
    rw [obtainable_iff_normal, Normal, hmin, hmax]
    exact Iff.rfl
  · exact ⟨fun h => ofWord_toWord h.normal, .ofWord⟩
  · rw [ofWord_eq_ok, obtainable_iff_normal]
    exact and_congr_right fun _ => eq_comm

end XrpLedger.IssuedValue
