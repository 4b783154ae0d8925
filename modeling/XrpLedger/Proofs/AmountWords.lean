import XrpLedger.Amount.Basic
import XrpLedger.Bytes.Lemmas

/-!
# Amount words

Which 64-bit words are read as which amounts. An issued value has one word. A native
amount has one as well, but for nothing at all, whose word may lack the sign bit.

- `Drops.ofWord_eq_ok`, `IssuedValue.ofWord_eq_ok`: the words of an amount.
-/

namespace XrpLedger

namespace Bytes

/-- A byte string is the spelling `ofNat` of a number if its width and its number are
right. -/
theorem eq_ofNat_iff {width n : Nat} (hn : n < 256 ^ width) (u : Bytes) :
    u = ofNat width n ↔ u.length = width ∧ toNat u = n := by
  constructor
  · rintro rfl
    exact ⟨length_ofNat .., by rw [toNat_ofNat, Nat.mod_eq_of_lt hn]⟩
  · rintro ⟨rfl, rfl⟩
    exact (ofNat_toNat u).symm

end Bytes

/-! ## Native amounts -/

namespace Drops

/-- The word `toWord` of a count is the count with the positive bit set. -/
theorem toNat_toWord (d : Drops) : d.toWord.toNat = AmountWord.positiveBit + d.count := by
  have hcount := d.count_le
  unfold toWord
  rw [UInt64.toNat_ofNat']
  unfold AmountWord.positiveBit
  unfold maxCount at hcount
  omega

/-- A count that `ofCount` takes is the count of the amount. -/
theorem ofCount_eq_ok {count : Nat} {d : Drops} :
    ofCount count = .ok d ↔ count = d.count := by
  obtain ⟨k, hk⟩ := d
  unfold ofCount
  split
  · next hcount => simp
  · next hcount =>
    constructor
    · intro h
      cases h
    · rintro rfl
      exact absurd hk hcount

/-- Nothing at all has a second word beside `toWord`, and all other amounts have only that
one. -/
theorem ofWord_eq_ok {word : UInt64} {d : Drops} :
    ofWord word = .ok d ↔ word = d.toWord ∨ (word = 0 ∧ d.count = 0) := by
  have hword := word.toNat_lt
  have hcount := d.count_le
  rw [← UInt64.toNat_inj, ← UInt64.toNat_inj, toNat_toWord]
  unfold ofWord AmountWord.issuedBit AmountWord.positiveBit
  unfold maxCount at hcount
  simp only [UInt64.toNat_zero]
  -- the bit of issued values is refused, as is a missing sign bit in front of a count
  split
  · next hissued =>
    constructor
    · intro h
      cases h
    · omega
  · next hissued =>
    split
    · next hnegative =>
      constructor
      · intro h
        cases h
      · omega
    · next hnegative =>
      rw [ofCount_eq_ok]
      omega

end Drops

/-! ## Issued values -/

namespace IssuedValue

theorem normal_zero : Normal zero := .inl rfl

/-- The word `toWord` of a value other than nothing, part by part. -/
theorem toNat_toWord {v : IssuedValue} (hm : v.mantissa ≠ 0)
    (hmax : v.mantissa ≤ maxMantissa)
    (hlow : minExponent ≤ v.exponent) (hhigh : v.exponent ≤ maxExponent) :
    v.toWord.toNat = AmountWord.issuedBit +
    (if v.negative then 0 else AmountWord.positiveBit) +
      (v.exponent + exponentBias).toNat * AmountWord.exponentUnit + v.mantissa := by
  have hzero : v.isZero = false := by simpa [isZero] using hm
  unfold toWord
  rw [hzero, if_neg Bool.false_ne_true, UInt64.toNat_ofNat']
  unfold maxMantissa at hmax
  unfold minExponent at hlow
  unfold maxExponent at hhigh
  unfold AmountWord.issuedBit AmountWord.positiveBit AmountWord.exponentUnit exponentBias
  split <;> omega

/-- In the word of `zero` only the top bit is set. -/
theorem toWord_zero : zero.toWord.toNat = AmountWord.issuedBit := by decide

/-- The top bit of the word `toWord` of a normal value is set. -/
theorem issuedBit_le_toWord (v : IssuedValue) (hv : v.Normal) :
    AmountWord.issuedBit ≤ v.toWord.toNat := by
  rcases hv with rfl | ⟨hmin, hmax, hlow, hhigh⟩
  · rw [toWord_zero]
  · unfold minMantissa at hmin
    rw [toNat_toWord (by omega) hmax hlow hhigh]
    omega

/-- The value that `ofWord` reads is normal, and it is written by `toWord` as the same
word. -/
theorem normal_of_ofWord {word : UInt64} {v : IssuedValue} (h : ofWord word = .ok v) :
    v.Normal ∧ word = v.toWord := by
  have hword := word.toNat_lt
  rw [← UInt64.toNat_inj]
  unfold ofWord at h
  simp only at h
  split at h
  · cases h
  · next hissued =>
    split at h
    · next hmantissa =>
      split at h
      · -- without digits, only the top bit is set
        next hzero =>
        cases h
        exact ⟨normal_zero, by rw [hzero, toWord_zero]⟩
      · cases h
    · next hmantissa =>
      split at h
      · next hrange =>
        cases h
        refine ⟨.inr hrange, ?_⟩
        rw [toNat_toWord hmantissa hrange.2.1 hrange.2.2.1 hrange.2.2.2]
        unfold AmountWord.issuedBit at hissued
        unfold AmountWord.issuedBit AmountWord.positiveBit AmountWord.exponentUnit
          exponentBias
        simp only [beq_iff_eq, Int.ofNat_eq_natCast]
        split <;> omega
      · cases h

/-- The sign, the exponent and the mantissa of a word can be told apart. -/
theorem word_parts (sign : Nat) {exponent mantissa : Nat} (hs : sign ≤ 1)
    (he : exponent < 256) (hm : mantissa < AmountWord.exponentUnit) :
    let n := AmountWord.issuedBit + sign * AmountWord.positiveBit +
      exponent * AmountWord.exponentUnit + mantissa
    n % AmountWord.exponentUnit = mantissa ∧
    n / AmountWord.exponentUnit % 256 = exponent ∧
      n / AmountWord.positiveBit % 2 = sign := by
  unfold AmountWord.exponentUnit at hm
  unfold AmountWord.issuedBit AmountWord.positiveBit AmountWord.exponentUnit
  simp only
  omega

/-- A normal value is read by `ofWord` from its word `toWord`. -/
theorem ofWord_toWord {v : IssuedValue} (hv : v.Normal) : ofWord v.toWord = .ok v := by
  rcases hv with rfl | ⟨hmin, hmax, hlow, hhigh⟩
  · decide
  · have hzero : v.mantissa ≠ 0 := by
      unfold minMantissa at hmin
      omega
    have hunit : v.mantissa < AmountWord.exponentUnit := by
      unfold maxMantissa at hmax
      unfold AmountWord.exponentUnit
      omega
    -- the exponents in range are biased to what fits into an octet
    have hbias : (v.exponent + exponentBias).toNat < 256 ∧
        Int.ofNat (v.exponent + exponentBias).toNat - exponentBias = v.exponent := by
      unfold minExponent at hlow
      unfold maxExponent at hhigh
      unfold exponentBias
      simp only [Int.ofNat_eq_natCast]
      omega
    have hsign : (if v.negative then 0 else AmountWord.positiveBit) =
        (if v.negative then 0 else 1) * AmountWord.positiveBit := by
      split <;> simp
    -- what is read of the word are the parts that it was made of
    have hword := toNat_toWord hzero hmax hlow hhigh
    rw [hsign] at hword
    obtain ⟨hm, he, hs⟩ := word_parts (if v.negative then 0 else 1) (by split <;> decide)
      hbias.1 hunit
    rw [← hword] at hm he hs
    have hnegative : ((if v.negative then 0 else 1) == 0) = v.negative := by
      cases v.negative <;> rfl
    unfold ofWord
    simp only
    rw [hm, he, hs, hbias.2, hnegative, if_neg (by omega), if_neg hzero,
      if_pos ⟨hmin, hmax, hlow, hhigh⟩]

/-- A word is read by `ofWord` as a normal value exactly if the value is written by
`toWord` as it. -/
theorem ofWord_eq_ok {word : UInt64} {v : IssuedValue} :
    ofWord word = .ok v ↔ v.Normal ∧ word = v.toWord := by
  constructor
  · exact normal_of_ofWord
  · rintro ⟨hv, rfl⟩
    exact ofWord_toWord hv

end IssuedValue

end XrpLedger
