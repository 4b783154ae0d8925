import XrpLedger.Amount.Drops
import XrpLedger.Text.Hex

/-!
# Numbers in text

A text of digits is read as the number that it spells if that is below the bound, and so
the text of a number is read as the number.

- `Text.parseDigits_eq_ok`: the texts that are read as a number.
- `Text.parseNat_natural`, `Text.parseNat_toDigits`: the texts of numbers are read back.
- `Drops.ofDropsText_toDropsText`: the text of a count of drops.
-/

namespace XrpLedger

namespace Text

variable {base bound n acc : Nat} {cs : List Char}

/-! ## Digits -/

/-- Reading more digits does not make the number smaller. -/
theorem le_foldl_digits (hbase : 1 ≤ base) (ds : List Nat) (acc : Nat) :
    acc ≤ ds.foldl (fun n d => n * base + d) acc := by
  induction ds generalizing acc with
  | nil => exact Nat.le_refl acc
  | cons d ds ih =>
    have hstep : acc ≤ acc * base + d :=
      Nat.le_add_right_of_le (Nat.le_mul_of_pos_right acc hbase)
    exact Nat.le_trans hstep (ih (acc * base + d))

/-- What `parseDigits` reads is the number that the digits spell behind those
read before. -/
theorem parseDigits_eq_ok (hbase : 1 ≤ base) (hacc : acc < bound) :
    parseDigits base bound acc cs = .ok n ↔
      ∃ ds : List Nat, cs.map (digitOf? base) = ds.map some ∧
        ds.foldl (fun n d => n * base + d) acc = n ∧ n < bound := by
  -- on the characters: the bound is checked after each digit
  induction cs generalizing acc with
  | nil =>
    rw [parseDigits, Except.ok.injEq]
    constructor
    · rintro rfl
      exact ⟨[], rfl, rfl, hacc⟩
    · rintro ⟨ds, hds, rfl, -⟩
      cases List.map_eq_nil_iff.mp hds.symm
      rfl
  | cons c cs ih =>
    rw [parseDigits, List.map_cons]
    cases hc : digitOf? base c with
    | none =>
      refine iff_of_false nofun ?_
      rintro ⟨_ | ⟨d, ds⟩, hds, -⟩
      · cases hds
      · cases hds
    | some d =>
      simp only
      by_cases hstep : acc * base + d < bound
      · rw [if_pos hstep, ih hstep]
        constructor
        · rintro ⟨ds, hds, hn, hbound⟩
          exact ⟨d :: ds, congrArg (some d :: ·) hds, hn, hbound⟩
        · rintro ⟨_ | ⟨e, ds⟩, hds, hn, hbound⟩
          · cases hds
          · obtain ⟨hd, htail⟩ := List.cons.inj hds
            cases hd
            exact ⟨ds, htail, hn, hbound⟩
      · rw [if_neg hstep]
        refine iff_of_false nofun ?_
        rintro ⟨_ | ⟨e, ds⟩, hds, rfl, hbound⟩
        · cases hds
        · -- no number on the way is greater than the last
          cases (List.cons.inj hds).1
          exact hstep (Nat.lt_of_le_of_lt (le_foldl_digits hbase ds _) hbound)

/-- A text that does not start with a plus sign is read by `parseNat` as
by `parseDigits`. -/
theorem parseNat_ofList (hne : cs ≠ []) (hplus : cs.head? ≠ some '+') :
    parseNat base bound (String.ofList cs) = parseDigits base bound 0 cs := by
  unfold parseNat
  rw [String.toList_ofList]
  split
  · exact absurd rfl hne
  · exact absurd rfl hplus
  · exact absurd rfl hplus
  · rfl

/-! ## Hexadecimal digits -/

/-- The character `upperHexDigit` of a digit has the digit as its value `digitOf?`. -/
theorem digitOf?_upperHexDigit : ∀ d < 16, digitOf? 16 (upperHexDigit d) = some d := by
  decide

theorem upperHexDigit_ne_plus : ∀ d < 16, upperHexDigit d ≠ '+' := by
  decide

/-- The hexadecimal text `Hex.natural` of a number below the bound is read by `parseNat`
as the number. -/
theorem parseNat_natural (hn : n < bound) :
    parseNat 16 bound (Hex.natural n) = .ok n := by
  by_cases hzero : n = 0
  · subst hzero
    show (if 0 * 16 + 0 < bound then _ else _) = _
    rw [if_pos hn]
    rfl
  · have hvalue : Positional.value 16 (Positional.digits 16 n) = n :=
      Positional.value_digits (by decide) n
    have hdigits : ∀ d ∈ Positional.digits 16 n, d < 16 :=
      Positional.digits_lt (by decide) n
    -- a number above zero has a digit, and no digit is a plus sign
    have hne : Positional.digits 16 n ≠ [] := by
      intro hnil
      rw [hnil, Positional.value_nil] at hvalue
      exact hzero hvalue.symm
    have hplus : ((Positional.digits 16 n).map upperHexDigit).head? ≠ some '+' := by
      intro hhead
      obtain ⟨d, hd, hplus⟩ := List.mem_map.mp (List.mem_of_head? hhead)
      exact upperHexDigit_ne_plus d (hdigits d hd) hplus
    rw [Hex.natural, if_neg hzero, parseNat_ofList (by simpa using hne) hplus,
      parseDigits_eq_ok (by decide) (Nat.zero_lt_of_lt hn)]
    refine ⟨Positional.digits 16 n, ?_, hvalue, hn⟩
    rw [List.map_map]
    exact List.map_congr_left fun d hd => digitOf?_upperHexDigit d (hdigits d hd)

/-! ## Decimal digits -/

/-- A decimal digit has its distance from `'0'` as its value `digitOf?`. -/
theorem digitOf?_of_isDigit {c : Char} (hc : c.isDigit = true) :
    digitOf? 10 c = some (c.toNat - '0'.toNat) := by
  obtain ⟨hlow, hhigh⟩ := Char.isDigit_iff_toNat.mp hc
  have hrange : '0' ≤ c ∧ c ≤ '9' := ⟨hlow, hhigh⟩
  have hlt : c.toNat - '0'.toNat < 10 := by
    have hnine : '9'.toNat = '0'.toNat + 9 := rfl
    omega
  rw [digitOf?, digitValue?, if_pos hrange]
  simp only
  rw [if_pos hlt]

/-- The characters that have a value `digitOf?` in base ten are decimal digits. -/
theorem isDigit_of_digitOf? {c : Char} {d : Nat} (h : digitOf? 10 c = some d) :
    c.isDigit = true := by
  unfold digitOf? digitValue? at h
  by_cases hdecimal : '0' ≤ c ∧ c ≤ '9'
  · exact Char.isDigit_iff_toNat.mpr hdecimal
  · rw [if_neg hdecimal] at h
    split at h
    next value hvalue =>
      -- a letter has a value of ten or more, which is no digit of base ten
      have hletter : 10 ≤ value := by
        split at hvalue
        · cases hvalue
          omega
        · split at hvalue
          · cases hvalue
            omega
          · cases hvalue
      rw [if_neg (by omega)] at h
      cases h
    · cases h

theorem digitOf?_lt {base d : Nat} {c : Char} (h : digitOf? base c = some d) :
    d < base := by
  unfold digitOf? at h
  split at h
  · split at h
    next hlt =>
      cases h
      exact hlt
    · cases h
  · cases h

/-- Decimal digits are read by `parseDigits` as the number `Nat.ofDigitChars` that they
spell. -/
theorem parseDigits_decimal (hcs : ∀ c ∈ cs, c.isDigit = true) (hacc : acc < bound) :
    parseDigits 10 bound acc cs = .ok n ↔ Nat.ofDigitChars 10 cs acc = n ∧ n < bound := by
  have hvalue : (cs.map fun c => c.toNat - '0'.toNat).foldl (fun n d => n * 10 + d) acc =
      Nat.ofDigitChars 10 cs acc := by
    rw [List.foldl_map, Nat.ofDigitChars]
    congr 1
    funext n c
    rw [Nat.mul_comm]
  have hdigits : cs.map (digitOf? 10) =
      (cs.map fun c => c.toNat - '0'.toNat).map some := by
    rw [List.map_map]
    exact List.map_congr_left fun c hc => digitOf?_of_isDigit (hcs c hc)
  rw [parseDigits_eq_ok (by decide) hacc]
  constructor
  · rintro ⟨ds, hds, hn, hbound⟩
    have hsame : ds = cs.map fun c => c.toNat - '0'.toNat :=
      (List.map_inj_right fun _ _ => Option.some.inj).mp (hds.symm.trans hdigits)
    rw [hsame, hvalue] at hn
    exact ⟨hn, hbound⟩
  · rintro ⟨hn, hbound⟩
    exact ⟨_, hdigits, hvalue.trans hn, hbound⟩

/-- Only decimal digits are read by `parseDigits` in base ten, and as the number
`Nat.ofDigitChars` that they spell. -/
theorem parseDigits_ten_eq_ok (hacc : acc < bound) :
    parseDigits 10 bound acc cs = .ok n ↔
      (∀ c ∈ cs, c.isDigit = true) ∧ Nat.ofDigitChars 10 cs acc = n ∧ n < bound := by
  constructor
  · intro h
    have hdigits : ∀ c ∈ cs, c.isDigit = true := by
      obtain ⟨ds, hds, -⟩ := (parseDigits_eq_ok (by decide) hacc).mp h
      intro c hc
      obtain ⟨d, -, hd⟩ := List.mem_map.mp (hds ▸ List.mem_map_of_mem hc)
      exact isDigit_of_digitOf? hd.symm
    exact ⟨hdigits, (parseDigits_decimal hdigits hacc).mp h⟩
  · rintro ⟨hdigits, hspelled⟩
    exact (parseDigits_decimal hdigits hacc).mpr hspelled

theorem isDigit_toDigits (n : Nat) : ∀ c ∈ Nat.toDigits 10 n, c.isDigit = true :=
  fun _ hc => Nat.isDigit_of_mem_toDigits (by decide) (by decide) hc

/-- A text of digits does not start with a sign. -/
theorem head?_ne_of_isDigit {sign : Char} (hsign : sign.isDigit = false)
    (hcs : ∀ c ∈ cs, c.isDigit = true) : cs.head? ≠ some sign := by
  intro hhead
  have hdigit := hcs sign (List.mem_of_head? hhead)
  rw [hsign] at hdigit
  cases hdigit

/-- The decimal text `Nat.toDigits` of a number below the bound is read by `parseNat` as
the number. -/
theorem parseNat_toDigits (hn : n < bound) :
    parseNat 10 bound (String.ofList (Nat.toDigits 10 n)) = .ok n := by
  rw [parseNat_ofList Nat.toDigits_ne_nil (head?_ne_of_isDigit rfl (isDigit_toDigits n)),
    parseDigits_decimal (isDigit_toDigits n) (Nat.zero_lt_of_lt hn)]
  exact ⟨Nat.ofDigitChars_ten_toDigits, hn⟩

end Text

/-- The text `toDropsText` of a count of drops is read by `ofDropsText` as the count. -/
theorem Drops.ofDropsText_toDropsText (d : Drops) :
    ofDropsText d.toDropsText = .ok d := by
  obtain ⟨count, hcount⟩ := d
  have hlt : count < UInt64.size := Nat.lt_of_le_of_lt hcount (by decide)
  have htext : toDropsText ⟨count, hcount⟩ = String.ofList (Nat.toDigits 10 count) :=
    Nat.toString_eq_ofList_toDigits
  rw [ofDropsText, htext, Text.parseNat_toDigits hlt]
  simp only
  rw [ofCount, dif_pos hcount]

end XrpLedger
