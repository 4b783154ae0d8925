import XrpLedger.Proofs.CurrencyText

/-!
# Forms of currency codes

A code may be met as twenty octets, as its text, or as forty hexadecimal digits. Codes of
three characters have all of these forms, and so has the native currency, so the forms
overlap; still each of them is read as one code only.

- `CurrencyCode.IsStandardForm`, `CurrencyCode.isAccepted_iff`: the octets that are codes.
- `CurrencyCode.eq_toText_of_standard`, `CurrencyCode.ofText_eq_ok`: the texts of a code.
- `CurrencyCode.ofFixed_ofText_iff`: the octets and the texts, and the text that a code is
  written in.
-/

namespace XrpLedger.CurrencyCode

variable {raw : FixedBytes 20} {text : String} {code : CurrencyCode} {a b c : UInt8}

/-! ## Octets -/

/-- The characters that a standard code may have. -/
def standardCharacters : String :=
  "ABCDEFGHIJKLMNOPQRSTUVWXYZabcdefghijklmnopqrstuvwxyz0123456789<>()\x7b\x7d[]|?!@#$%^&*"

/-- Zeros around three characters of standard codes, which do not name the native
currency. -/
def IsStandardForm (raw : FixedBytes 20) : Prop :=
  ∃ a b c, raw = layout a b c ∧
    (∀ d ∈ [a, b, c], Char.ofNat d.toNat ∈ standardCharacters.toList) ∧
    [a, b, c] ≠ Bytes.ofText "XRP"

/-- The octets `isStandardOctet` are listed in `standardCharacters`. -/
theorem isStandardOctet_iff {d : UInt8} :
    isStandardOctet d = true ↔ Char.ofNat d.toNat ∈ standardCharacters.toList := by
  have hlisted : ∀ d, isStandardOctet d = true →
      Char.ofNat d.toNat ∈ standardCharacters.toList := by
    rw [standardCharacters, String.toList_ofList]
    exact Bytes.octet_forall (by decide +kernel)
  have hstandard : standardCharacters.toList.all
      (fun c => c.isAlphanum || punctuation.contains c) = true := by
    rw [standardCharacters, String.toList_ofList]
    decide +kernel
  exact ⟨hlisted d, List.all_eq_true.mp hstandard _⟩

/-- A `layout` of three such characters is accepted, unless it names the
native currency. -/
theorem isAccepted_layout (hstandard : [a, b, c].all isStandardOctet = true)
    (hxrp : [a, b, c] ≠ Bytes.ofText "XRP") : isAccepted (layout a b c) = true := by
  have hpadding : isPaddingClear (layout a b c) = true := rfl
  have hpart : standardPart (layout a b c) = [a, b, c] := rfl
  rw [isAccepted, hpadding, hpart, hstandard, bne_iff_ne.mpr hxrp,
    Bool.and_self, Bool.and_self, Bool.or_true]

/-- The octets that `isAccepted` lets through: zeros, octets that zero does not lead, and
octets that are `IsStandardForm`. -/
theorem isAccepted_iff :
    isAccepted raw = true ↔
      raw = FixedBytes.zero 20 ∨ raw.toList.head? ≠ some 0 ∨ IsStandardForm raw := by
  constructor
  · intro haccepted
    by_cases hzero : raw.isZero = true
    · exact .inl (FixedBytes.eq_zero_of_isZero hzero)
    · by_cases hhead : raw.toList.head? = some 0
      -- led by a zero, but not all zeros: only the three characters are left
      · obtain ⟨a, b, c, hraw, hstandard, hxrp⟩ :=
          exists_layout haccepted hhead (Bool.eq_false_iff.mpr hzero)
        exact .inr (.inr ⟨a, b, c, hraw, fun d hd =>
          isStandardOctet_iff.mp (hstandard d hd), hxrp⟩)
      · exact .inr (.inl hhead)
  · rintro (rfl | hhead | ⟨a, b, c, rfl, hstandard, hxrp⟩)
    · rfl
    · rw [isAccepted, bne_iff_ne.mpr hhead]
      rfl
    · have hall : [a, b, c].all isStandardOctet = true :=
        List.all_eq_true.mpr fun d hd => isStandardOctet_iff.mpr (hstandard d hd)
      exact isAccepted_layout hall hxrp

/-! ## Texts -/

/-- What `standard` reads as three characters is the text `toText` of the code. -/
theorem eq_toText_of_standard (h : standard text = .ok code) : text = code.toText := by
  unfold standard at h
  split at h
  · next hxrp =>
    cases h
    exact hxrp
  · split at h
    · next a b c hoctets =>
      split at h
      · next hstandard =>
        cases h
        have hall : ∀ d ∈ [a, b, c], isStandardOctet d = true :=
          List.all_eq_true.mp hstandard.1
        rw [← Text.octets_eq_ofText] at hoctets
        have hascii : ∀ d ∈ Text.octets text, d.toNat < 128 := by
          rw [hoctets]
          exact fun d hd => lt_of_isStandardOctet (hall d hd)
        rw [toText_layout hall, ← String.toList_inj, Text.toList_eq_asciiChars hascii,
          Text.asciiChars, hoctets, String.toList_ofList]
      · cases h
    · cases h

/-- A code is read by `ofText` from its text `toText`, from the forty digits of its octets
in either case, and from nothing else. -/
theorem ofText_eq_ok :
    ofText text = .ok code ↔
      text = code.toText ∨ text.toUpper = Text.Hex.encode code.toBytes := by
  constructor
  · intro h
    -- three octets are taken for a standard code, and forty for digits
    unfold ofText at h
    dsimp only at h
    split at h
    · exact .inl (eq_toText_of_standard h)
    · split at h
      · split at h
        · next bs hdecode =>
          rw [ofBytes_eq_ok.mp h]
          exact .inr (Text.Hex.decode_eq_ok.mp hdecode)
        · cases h
      · cases h
  · rintro (rfl | hdigits)
    · exact ofText_toText code
    · exact ofText_of_digits hdigits

/-- Twenty octets are a code exactly if they are zeros, if zero does not lead them, or if
they are `IsStandardForm`, and the code is the one with these octets. A code is read by
`ofText` from its text `toText` and from the forty digits of its octets, in either case,
and from no other text. So it is read from the text that it is written in. -/
theorem ofFixed_ofText_iff :
    (∀ raw : FixedBytes 20, (∃ code, ofFixed raw = .ok code) ↔
      raw = FixedBytes.zero 20 ∨ raw.toList.head? ≠ some 0 ∨ IsStandardForm raw) ∧
    (∀ (raw : FixedBytes 20) (code : CurrencyCode), ofFixed raw = .ok code ↔
      code.toBytes = raw.toList) ∧
    (∀ (text : String) (code : CurrencyCode), ofText text = .ok code ↔
      text = code.toText ∨ text.toUpper = Text.Hex.encode code.toBytes) ∧
    ∀ code : CurrencyCode, ofText code.toText = .ok code := by
  refine ⟨fun raw => ?_, fun raw code => ?_, fun _ _ => ofText_eq_ok, ofText_toText⟩
  · rw [← isAccepted_iff]
    constructor
    · rintro ⟨code, hcode⟩
      rw [← ofFixed_eq_ok.mp hcode]
      exact code.isAccepted_raw
    · intro haccepted
      exact ⟨⟨raw, haccepted⟩, ofFixed_eq_ok.mpr rfl⟩
  · rw [ofFixed_eq_ok]
    exact ⟨congrArg FixedBytes.toList, FixedBytes.ext⟩

end XrpLedger.CurrencyCode
