import XrpLedger.Proofs.DecimalText
import XrpLedger.Proofs.Rounding

/-!
# Digits of issued values

The digits of an issued value are read one by one. Of many digits only the first
thirty-six are kept, which is more than rounding looks at.

- `IssuedValue.Digits.Spells`: the number that the digits read so far stand for.
- `IssuedValue.Digits.Spells.push?`, `IssuedValue.Digits.Spells.pushAll?`: what one digit
  does, and what a text of digits does.
- `IssuedValue.Digits.Spells.ofScaled_eq`: rounding the digits that are kept is rounding
  them all.
-/

namespace XrpLedger.IssuedValue.Digits

open Text.Decimal (natural)

variable {inFraction : Bool} {ds : Digits} {n : Nat} {e : Int} {cs : List Char}

/-- The digits stand for `n * 10 ^ e`: only digits behind those that are kept are missing,
and the first digit that is kept is not zero. Each digit that is read keeps this. -/
structure Spells (ds : Digits) (n : Nat) (e : Int) : Prop where
  kept : ∃ k r : Nat, n = ds.mantissa * 10 ^ k + r ∧ r < 10 ^ k ∧ ds.exponent = e + k ∧
    (k = 0 ∨ maxCount ≤ ds.count)
  leading : ds.count = 0 ∨ 10 ^ (ds.count - 1) ≤ ds.mantissa

/-- Before the first digit, the number is zero. -/
theorem spells_nil (e : Int) : Spells ⟨0, 0, e⟩ 0 e :=
  ⟨⟨0, 0, rfl, by decide, (Int.add_zero e).symm, .inl rfl⟩, .inl rfl⟩

/-! ## Rounding -/

/-- Digits with `Spells` of which none is kept are those of zero. -/
theorem Spells.eq_zero (h : ds.Spells n e) (hzero : ds.mantissa = 0) : n = 0 := by
  obtain ⟨⟨k, r, hn, hr, -, hfull⟩, hleading⟩ := h
  have hpow : 0 < 10 ^ (ds.count - 1) := Nat.pow_pos (by decide)
  have hk : k = 0 := by
    unfold maxCount at hfull
    omega
  subst hk
  rw [hzero, Nat.zero_mul] at hn
  omega

/-- Rounding the digits that are kept with `ofScaled` is rounding them all. -/
theorem Spells.ofScaled_eq (h : ds.Spells n e) (negative : Bool) :
    ofScaled negative ds.mantissa ds.exponent = ofScaled negative n e := by
  by_cases hzero : ds.mantissa = 0
  · rw [h.eq_zero hzero, hzero]
    rfl
  obtain ⟨⟨k, r, hn, hr, hexponent, hfull⟩, hleading⟩ := h
  -- digits are missing only behind thirty-six others, and all but seventeen of those are
  -- dropped
  have hne : n ≠ 0 := by
    have hpow : ds.mantissa ≤ ds.mantissa * 10 ^ k :=
      Nat.le_mul_of_pos_right _ (Nat.pow_pos (by decide))
    omega
  have hdrop : dropDigits n e = dropDigits ds.mantissa ds.exponent := by
    rcases hfull with rfl | hfull
    · have hall : n = ds.mantissa := by
        rw [Nat.pow_zero] at hn hr
        omega
      rw [hall, hexponent, Nat.cast_zero, Int.add_zero]
    · have hlong : 10 ^ 16 ≤ ds.mantissa := by
        unfold maxCount at hfull
        have hpow : 10 ^ 16 ≤ 10 ^ (ds.count - 1) :=
          Nat.pow_le_pow_right (by decide) (by omega)
        omega
      rw [hn, dropDigits_mul_pow_add hlong hr, hexponent]
  unfold ofScaled scale
  rw [if_neg hzero, if_neg hne, hdrop]

/-! ## One digit -/

/-- The exponent is moved by `move?` as long as there is room. -/
theorem move?_eq_some {step : Int} (hroom : (ds.exponent + step).natAbs < 2 ^ 63) :
    ds.move? step = some { ds with exponent := ds.exponent + step } := by
  have hbound : -exponentBound ≤ ds.exponent + step ∧
      ds.exponent + step < exponentBound := by
    unfold exponentBound
    omega
  unfold move?
  simp only
  rw [if_pos hbound]

/-- A digit is taken by `push?` as long as there is room for the exponent. -/
theorem push?_eq_some (hroom : ds.exponent.natAbs + 1 < 2 ^ 63) (d : Nat) :
    ds.push? inFraction d = some
      (if ds.mantissa = 0 ∧ d = 0 then
        { ds with exponent := ds.exponent - inFraction.toNat }
      else if ds.count < maxCount then
        ⟨ds.mantissa * 10 + d, ds.count + 1, ds.exponent - inFraction.toNat⟩
      else { ds with exponent := ds.exponent + 1 - inFraction.toNat }) := by
  -- behind the point, the exponent goes down with each digit
  have hdown : ∀ ds' : Digits, ds'.exponent = ds.exponent →
      (if inFraction then ds'.move? (-1) else some ds') =
        some { ds' with exponent := ds.exponent - inFraction.toNat } := by
    intro ds' hsame
    cases inFraction with
    | true =>
      have hmove : (ds'.exponent + -1).natAbs < 2 ^ 63 := by omega
      rw [if_pos rfl, move?_eq_some hmove, hsame]
      rfl
    | false =>
      rw [if_neg Bool.false_ne_true, Bool.toNat_false, Nat.cast_zero,
        Int.sub_zero, ← hsame]
  -- a digit that is not kept moves it up, which behind the point leaves it in place
  have hup : (if inFraction then some ds else ds.move? 1) =
      some { ds with exponent := ds.exponent + 1 - inFraction.toNat } := by
    cases inFraction with
    | true =>
      rw [if_pos rfl, Bool.toNat_true, Nat.cast_one, Int.add_sub_cancel]
    | false =>
      rw [if_neg Bool.false_ne_true, move?_eq_some (by omega),
        Bool.toNat_false, Nat.cast_zero, Int.sub_zero]
  unfold push?
  simp only
  split
  · exact hdown ds rfl
  · split
    · exact hdown _ rfl
    · exact hup

/-- One more digit read by `push?` is one more digit of the number: a step
keeps `Spells`. -/
theorem Spells.push? (h : ds.Spells n e) (inFraction : Bool)
    (hroom : ds.exponent.natAbs + 1 < 2 ^ 63) {d : Nat} (hd : d < 10) :
    ∃ ds', ds.push? inFraction d = some ds' ∧
    ds'.Spells (10 * n + d) (e - inFraction.toNat) ∧
      ds'.exponent.natAbs ≤ ds.exponent.natAbs + 1 := by
  have hplace := inFraction.toNat_le
  refine ⟨_, push?_eq_some hroom d, ?_⟩
  by_cases hzeros : ds.mantissa = 0 ∧ d = 0
  · -- a leading zero leaves the number as it is
    obtain ⟨hmantissa, rfl⟩ := hzeros
    have hn := h.eq_zero hmantissa
    obtain ⟨⟨k, r, -, -, hexponent, hfull⟩, hleading⟩ := h
    have hpow : 0 < 10 ^ (ds.count - 1) := Nat.pow_pos (by decide)
    have hcount : ds.count = 0 := by omega
    have hk : k = 0 := by
      unfold maxCount at hfull
      omega
    subst hk
    rw [if_pos ⟨hmantissa, rfl⟩, hexponent]
    exact ⟨⟨⟨0, 0, by simp [hn, hmantissa], by decide, by simp, .inl rfl⟩, .inl hcount⟩,
      show (e + (0 : Nat) - inFraction.toNat : Int).natAbs ≤ _ by omega⟩
  rw [if_neg hzeros]
  obtain ⟨⟨k, r, hn, hr, hexponent, hfull⟩, hleading⟩ := h
  by_cases hroomy : ds.count < maxCount
  · -- a digit that is kept stands behind others that all are
    have hk : k = 0 := by omega
    subst hk
    have hall : 10 * n + d = (ds.mantissa * 10 + d) * 10 ^ 0 + 0 := by
      rw [Nat.pow_zero] at hn hr ⊢
      omega
    have hpow : 10 ^ ds.count ≤ ds.mantissa * 10 + d := by
      by_cases hcount : ds.count = 0
      · rw [hcount, Nat.pow_zero]
        omega
      · have hsucc : 10 ^ ds.count = 10 ^ (ds.count - 1) * 10 := by
          rw [← Nat.pow_succ, Nat.succ_eq_add_one, Nat.sub_one_add_one hcount]
        omega
    rw [if_pos hroomy, hexponent]
    exact ⟨⟨⟨0, 0, hall, by decide, by simp, .inl rfl⟩, .inr hpow⟩,
      show (e + (0 : Nat) - inFraction.toNat : Int).natAbs ≤ _ by omega⟩
  · -- a digit that is not kept
    have hall : 10 * n + d = ds.mantissa * 10 ^ (k + 1) + (10 * r + d) := by
      rw [hn]
      ring
    have hless : 10 * r + d < 10 ^ (k + 1) := by
      rw [Nat.pow_succ]
      omega
    have hplaces : ds.exponent + 1 - inFraction.toNat =
        e - inFraction.toNat + ((k + 1 : Nat) : Int) := by
      rw [hexponent, Nat.cast_succ]
      ring
    rw [if_neg hroomy]
    exact ⟨⟨⟨k + 1, _, hall, hless, hplaces, .inr (Nat.not_lt.mp hroomy)⟩, hleading⟩,
      show (ds.exponent + 1 - inFraction.toNat).natAbs ≤ _ by omega⟩

/-! ## Texts of digits -/

/-- The digits of a text read by `pushAll?` are more digits of the number: a run keeps
`Spells`. -/
theorem Spells.pushAll? (h : ds.Spells n e) (inFraction : Bool)
    (hcs : ∀ c ∈ cs, c.isDigit = true) (hroom : ds.exponent.natAbs + cs.length < 2 ^ 63) :
    ∃ ds', pushAll? inFraction ds cs = some ds' ∧
      ds'.Spells (Nat.ofDigitChars 10 cs n) (e - (inFraction.toNat * cs.length : Nat)) ∧
      ds'.exponent.natAbs ≤ ds.exponent.natAbs + cs.length := by
  -- a digit moves the exponent by one at most, so that there is room for it at every step
  induction cs generalizing ds n e with
  | nil =>
    refine ⟨ds, rfl, ?_, Nat.le_refl _⟩
    simpa using h
  | cons c cs ih =>
    rw [List.length_cons] at hroom
    have hdigit := Text.digitOf?_of_isDigit (hcs c List.mem_cons_self)
    obtain ⟨next, hnext, hspells, hexponent⟩ :=
      h.push? inFraction (by omega) (Text.digitOf?_lt hdigit)
    obtain ⟨last, hlast, hspells', hexponent'⟩ :=
      ih hspells (fun c' hc' => hcs c' (List.mem_cons_of_mem c hc')) (by omega)
    refine ⟨last, ?_, ?_, ?_⟩
    · rw [Digits.pushAll?, hdigit]
      simp only
      rw [hnext]
      exact hlast
    · rw [Nat.ofDigitChars_cons, List.length_cons]
      -- a digit behind the point takes one place, and the others take theirs
      have hplaces : e - (inFraction.toNat * (cs.length + 1) : Nat) =
          e - inFraction.toNat - (inFraction.toNat * cs.length : Nat) := by
        push_cast
        ring
      rw [hplaces]
      exact hspells'
    · rw [List.length_cons]
      omega

/-- Only texts of digits are read by `pushAll?`. -/
theorem isDigit_of_pushAll? {ds' : Digits} (h : pushAll? inFraction ds cs = some ds') :
    ∀ c ∈ cs, c.isDigit = true := by
  induction cs generalizing ds with
  | nil => simp
  | cons c cs ih =>
    rw [Digits.pushAll?] at h
    split at h
    · cases h
    next d hd =>
      split at h
      · cases h
      · rw [List.forall_mem_cons]
        exact ⟨Text.isDigit_of_digitOf? hd, ih h⟩

/-! ## Whole parts and fractions -/

variable {whole fraction : List Char}

/-- The digits of a whole part and a fraction are read by `ofParts?` as the digits of one
number. -/
theorem exists_ofParts? (hne : whole ≠ [] ∨ fraction ≠ [])
    (hwhole : ∀ c ∈ whole, c.isDigit = true)
    (hfraction : ∀ c ∈ fraction, c.isDigit = true)
    (hroom : e.natAbs + whole.length + fraction.length < 2 ^ 63) :
    ∃ ds, ofParts? whole fraction e = some ds ∧
      ds.Spells (natural (whole ++ fraction)) (e - fraction.length) := by
  obtain ⟨first, hfirst, hspells, hexponent⟩ :=
    (spells_nil e).pushAll? false hwhole (show e.natAbs + whole.length < _ by omega)
  change first.exponent.natAbs ≤ e.natAbs + whole.length at hexponent
  -- the fraction is read behind the whole part, with the room that is left
  obtain ⟨last, hlast, hspells', -⟩ :=
    hspells.pushAll? true hfraction (by omega)
  refine ⟨last, ?_, ?_⟩
  · have hsome : ¬ (whole = [] ∧ fraction = []) := by
      rintro ⟨rfl, rfl⟩
      simp at hne
    rw [ofParts?, if_neg hsome, hfirst]
    exact hlast
  · rw [← Nat.ofDigitChars_append] at hspells'
    simpa [natural] using hspells'

/-- Only a whole part and a fraction of digits are read by `ofParts?`, and not without
any. -/
theorem isDigit_of_ofParts? (h : ofParts? whole fraction e = some ds) :
    (whole ≠ [] ∨ fraction ≠ []) ∧ (∀ c ∈ whole, c.isDigit = true) ∧
      ∀ c ∈ fraction, c.isDigit = true := by
  unfold ofParts? at h
  by_cases hnone : whole = [] ∧ fraction = []
  · rw [if_pos hnone] at h
    cases h
  · rw [if_neg hnone] at h
    split at h
    · cases h
    next first hfirst =>
      exact ⟨not_and_or.mp hnone, isDigit_of_pushAll? hfirst, isDigit_of_pushAll? h⟩

end XrpLedger.IssuedValue.Digits
