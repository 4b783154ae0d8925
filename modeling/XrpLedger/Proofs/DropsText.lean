import XrpLedger.Proofs.AmountWords
import XrpLedger.Proofs.ExactText

/-!
# Texts of native amounts are exact

An amount in XRP is digits with at most one point among them, and at most six digits
behind the point. It is a whole number of drops then, and it is read as that number, if
there are so many drops. An amount is written without needless zeros, and with a point
only where there is a fraction.

- `Literal.IsFixedPoint`: literals without a sign and a power of ten.
- `Drops.ofText_eq_ok`: the texts that an amount is read from.
- `Drops.exists_toText`: what the text of an amount is made of.
- `Drops.text_exact`: both, and that an amount is read from its text.
-/

namespace XrpLedger

open Text.Decimal (natural)

/-! ## Fixed point -/

/-- Digits, with at most one point somewhere among them. -/
structure Literal.IsFixedPoint (l : Literal) : Prop where
  sign : l.sign = .absent
  power : l.power = none

namespace Literal.IsFixedPoint

variable {l : Literal}

/-- The `chars` of such a literal are its digits and its point alone. -/
theorem chars_eq (h : l.IsFixedPoint) : l.chars = l.numberChars := by
  rw [chars, h.power, h.sign]
  rfl

/-- With zeros behind it up to the given places, the `mantissa` is a whole number, as
`toRat` says it. -/
theorem mantissa_eq (h : l.IsFixedPoint) {places k : Nat}
    (hplaces : l.fractionDigits.length + k = places) :
    ((l.mantissa * 10 ^ k : ℕ) : ℚ) = 10 ^ places * l.toRat := by
  have hexponent : l.exponent = 0 := by
    rw [exponent, h.power]
  have hsign : l.sign.isMinus = false := by
    rw [h.sign]
    rfl
  rw [toRat_eq, hexponent, hsign, zero_sub, zpow_neg, zpow_natCast, ← hplaces, pow_add]
  show _ = 10 ^ l.fractionDigits.length * 10 ^ k * (_ * _)
  push_cast
  field_simp

end Literal.IsFixedPoint

namespace Drops

variable {text : String} {d : Drops} {l : Literal}

/-! ## Reading -/

/-- The digits before and behind the point count drops together, as the
`mantissa` does. -/
theorem count_literal (hplaces : l.fractionDigits.length ≤ places) :
    natural l.whole * perXrp +
        natural l.fractionDigits * Nat.pow 10 (places - l.fractionDigits.length) =
      l.mantissa * 10 ^ (places - l.fractionDigits.length) := by
  have hpow : 10 ^ l.fractionDigits.length * 10 ^ (places - l.fractionDigits.length) =
      perXrp := by
    rw [← Nat.pow_add, Nat.add_sub_cancel' hplaces]
    rfl
  rw [Literal.mantissa, Text.Decimal.natural_append, Nat.add_mul, Nat.mul_assoc, hpow]
  rfl

/-- A literal in fixed point is read by `ofText` as its whole number of drops, if there
are so many. -/
theorem ofText_literal (htext : l.chars = text.toList) (hfixed : l.IsFixedPoint)
    (hplaces : l.fractionDigits.length ≤ places) :
    ofText text = .ok d ↔
    l.mantissa * 10 ^ (places - l.fractionDigits.length) = d.count := by
  have hsome : ¬ (l.whole = [] ∧ l.fractionDigits = [] ∨
      places < l.fractionDigits.length) := by
    rintro (⟨hwhole, hfraction⟩ | hlonger)
    · rcases l.some_digit with h | h
      · exact h hwhole
      · exact h hfraction
    · exact Nat.not_lt.mpr hplaces hlonger
  have hdigits : (l.whole ++ l.fractionDigits).all Char.isDigit = true := by
    refine List.all_eq_true.mpr fun c hc => ?_
    rcases List.mem_append.mp hc with hc | hc
    · exact l.isDigit_whole c hc
    · exact l.isDigit_fraction c hc
  have hvalue := count_literal hplaces
  have hcount := d.count_le
  have hmax : maxCount < UInt64.size := by decide
  -- too many XRP or too many drops are refused, and the number of drops is no less than
  -- that of XRP
  rw [ofText, ← htext, hfixed.chars_eq, IssuedValue.splitPoint_numberChars]
  simp only
  rw [if_neg hsome, if_pos hdigits, hvalue]
  split
  · next hlarge =>
    refine ⟨nofun, fun h => ?_⟩
    have hwhole : natural l.whole ≤ natural l.whole * perXrp :=
      Nat.le_mul_of_pos_right _ (by decide)
    omega
  · split
    · next hlarge =>
      refine ⟨nofun, fun h => ?_⟩
      omega
    · exact ofCount_eq_ok

/-- What `ofText` reads is a `Literal` in fixed point, with at most six digits behind the
point. -/
theorem exists_literal (h : ofText text = .ok d) :
    ∃ l : Literal, l.chars = text.toList ∧ l.IsFixedPoint ∧
    l.fractionDigits.length ≤ places := by
  unfold ofText at h
  cases hpoint : Text.Decimal.splitPoint text.toList with
  | mk whole fraction =>
  rw [hpoint] at h
  simp only at h
  split at h
  · cases h
  · next hsome =>
    obtain ⟨hne, hplaces⟩ := not_or.mp hsome
    split at h
    · next hdigits =>
      obtain ⟨fraction', rfl, htext⟩ := IssuedValue.exists_fraction_of_splitPoint hpoint
      have hdigits := List.all_eq_true.mp hdigits
      -- the two parts around the point are digits, so they make a literal
      let l : Literal := {
        sign := .absent
        whole := whole
        fraction := fraction'
        power := none
        isDigit_whole := fun c hc => hdigits c (List.mem_append_left _ hc)
        isDigit_fraction := fun c hc => hdigits c (List.mem_append_right _ hc)
        some_digit := not_and_or.mp hne }
      exact ⟨l, htext.symm, ⟨rfl, rfl⟩, Nat.le_of_not_lt hplaces⟩
    · cases h

/-- An amount is read by `ofText` from the literals in fixed point, with at most six
digits behind the point, that name it by `toRat`. -/
theorem ofText_eq_ok :
    ofText text = .ok d ↔ ∃ l : Literal, l.chars = text.toList ∧ l.IsFixedPoint ∧
      l.fractionDigits.length ≤ places ∧ (d.count : ℚ) = 10 ^ places * l.toRat := by
  -- to count drops is to multiply by a million
  have hcount : ∀ l : Literal, l.IsFixedPoint → l.fractionDigits.length ≤ places →
      (l.mantissa * 10 ^ (places - l.fractionDigits.length) = d.count ↔
        (d.count : ℚ) = 10 ^ places * l.toRat) := by
    intro l hfixed hplaces
    rw [← hfixed.mantissa_eq (Nat.add_sub_cancel' hplaces), Nat.cast_inj]
    exact eq_comm
  constructor
  · intro h
    obtain ⟨l, htext, hfixed, hplaces⟩ := exists_literal h
    have hread := (ofText_literal htext hfixed hplaces).mp h
    exact ⟨l, htext, hfixed, hplaces, (hcount l hfixed hplaces).mp hread⟩
  · rintro ⟨l, htext, hfixed, hplaces, hvalue⟩
    exact (ofText_literal htext hfixed hplaces).mpr ((hcount l hfixed hplaces).mpr hvalue)

/-! ## Writing -/

/-- The literal of an amount: the whole number of XRP without needless zeros in front, and
behind a point the rest without needless zeros at the end. Where there is no rest there is
no point. -/
structure Writes (l : Literal) (d : Drops) : Prop where
  fixedPoint : l.IsFixedPoint
  whole : natural l.whole = d.count / perXrp
  leading_zero : l.whole.head? = some '0' → l.whole = ['0']
  point_iff : l.fraction.isSome = true ↔ d.count % perXrp ≠ 0
  trimmed : l.Trimmed
  length_le : l.fractionDigits.length ≤ places
  value : (d.count : ℚ) = 10 ^ places * l.toRat

/-- The text `toText` of an amount is the digits of the whole number of XRP, and a point
with digits behind it that do not end in zero if there is a rest. -/
theorem exists_point (d : Drops) :
    ∃ (fraction : Option (List Char)) (k : Nat),
      (∀ c ∈ fraction.getD [], c.isDigit = true) ∧
      (fraction.getD []).length + k = places ∧
      natural (Nat.toDigits 10 (d.count / perXrp) ++ fraction.getD []) * 10 ^ k =
      d.count ∧
      (d.toText.toList = match fraction with
        | none => Nat.toDigits 10 (d.count / perXrp)
        | some ds => Nat.toDigits 10 (d.count / perXrp) ++ '.' :: ds) ∧
      (fraction.isSome = true ↔ d.count % perXrp ≠ 0) ∧
      ∀ ds, fraction = some ds → ds ≠ [] ∧ ds.getLast? ≠ some '0' := by
  have htext : d.toText.toList = Text.Decimal.fixedPoint places d.count :=
    String.toList_ofList
  obtain ⟨fraction, k, hfraction, hplaces, hvalue, hnumber⟩ :=
    Text.Decimal.exists_fixedPoint (show 0 < places by decide) d.count
  rw [htext]
  rcases hnumber with ⟨hnumber, rfl⟩ | ⟨hnumber, hne, hlast⟩
  · -- the digits in front of all the zeros are those of the whole number
    have hrest : d.count % perXrp = 0 := by
      obtain rfl : k = places := by rwa [List.length_nil, Nat.zero_add] at hplaces
      rw [← hvalue]
      exact Nat.mul_mod_left _ _
    exact ⟨none, k, hfraction, hplaces, hvalue, hnumber, by simp [hrest], nofun⟩
  · have hrest : d.count % perXrp ≠ 0 := by
      intro hzero
      have hwhole : Text.Decimal.fixedPoint places d.count =
          Nat.toDigits 10 (d.count / 10 ^ places) := if_pos hzero
      rw [hwhole] at hnumber
      exact absurd hnumber (by simp)
    refine ⟨some fraction, k, hfraction, hplaces, hvalue, hnumber, by simp [hrest], ?_⟩
    rintro ds ⟨⟩
    exact ⟨hne, hlast⟩

/-- The text `toText` of an amount is a literal that `Writes` it. -/
theorem exists_writes (d : Drops) :
    ∃ l : Literal, l.chars = d.toText.toList ∧ Writes l d := by
  obtain ⟨fraction, k, hfraction, hplaces, hvalue, htext, hpoint, htrimmed⟩ :=
    d.exists_point
  have hfixed : (IssuedValue.literalOf false (d.count / perXrp) fraction none
    hfraction).IsFixedPoint := ⟨rfl, rfl⟩
  refine ⟨IssuedValue.literalOf false (d.count / perXrp) fraction none hfraction,
    hfixed.chars_eq.trans htext.symm, hfixed, Text.Decimal.natural_toDigits _,
    fun hzero => ?_, hpoint, ⟨Nat.toDigits_ne_nil, htrimmed⟩, ?_, ?_⟩
  · show Nat.toDigits 10 (d.count / perXrp) = ['0']
    -- only nothing starts with zero
    rw [Text.Decimal.eq_zero_of_head?_toDigits hzero]
    rfl
  · show (fraction.getD []).length ≤ places
    omega
  · rw [← hfixed.mantissa_eq hplaces]
    exact congrArg Nat.cast hvalue.symm

/-- An amount is read by `ofText` from its text `toText`. -/
theorem ofText_toText (d : Drops) : ofText d.toText = .ok d := by
  obtain ⟨l, htext, hwrites⟩ := d.exists_writes
  exact ofText_eq_ok.mpr ⟨l, htext, hwrites.fixedPoint, hwrites.length_le, hwrites.value⟩

/-- A text is read by `ofText` as an amount exactly if it consists of digits, one or more,
with at most one point among them and at most six behind it, and the amount is the number
that they denote, in drops. There are at most `10 ^ 17` of these. An amount is written by
`toText` as its literal, and it is read from that text. -/
theorem text_exact :
    (∀ (text : String) (d : Drops), ofText text = .ok d ↔
      ∃ l : Literal, l.chars = text.toList ∧ l.IsFixedPoint ∧
      l.fractionDigits.length ≤ 6 ∧
        (d.count : ℚ) = 10 ^ 6 * l.toRat ∧ d.count ≤ 10 ^ 17) ∧
    ∀ d : Drops, (∃ l : Literal, l.chars = d.toText.toList ∧ Writes l d) ∧
    ofText d.toText = .ok d := by
  refine ⟨fun text d => ?_, fun d => ⟨d.exists_writes, d.ofText_toText⟩⟩
  rw [ofText_eq_ok]
  have hcount : d.count ≤ 10 ^ 17 := d.count_le
  simp only [hcount, and_true]
  rfl

end Drops

end XrpLedger
