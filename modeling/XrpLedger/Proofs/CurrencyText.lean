import Mathlib.Data.List.Basic
import XrpLedger.CurrencyCode
import XrpLedger.Proofs.HexText

/-!
# Texts of currency codes

- `CurrencyCode.ofFixed_eq_ok`, `CurrencyCode.ofBytes_eq_ok`: octets are read as the code
  of them.
- `CurrencyCode.exists_layout`: a standard code is laid out around three characters.
- `CurrencyCode.ofText_toText`: a code is read from its text.
-/

namespace XrpLedger

/-- The only octets that `isZero` accepts are those of `zero`. -/
theorem FixedBytes.eq_zero_of_isZero {n : Nat} {a : FixedBytes n} (h : a.isZero = true) :
    a = zero n := by
  refine FixedBytes.ext (List.eq_replicate_iff.mpr ⟨a.length_eq, fun b hb => ?_⟩)
  exact eq_of_beq (List.all_eq_true.mp h b hb)

namespace CurrencyCode

variable {raw : FixedBytes 20} {bs : Bytes} {text : String} {code : CurrencyCode}
    {a b c : UInt8}

/-! ## Octets -/

theorem length_toBytes (code : CurrencyCode) : code.toBytes.length = 20 :=
  code.raw.length_eq

/-- Octets that `ofFixed` accepts are the octets of the code. -/
theorem ofFixed_eq_ok : ofFixed raw = .ok code ↔ code.raw = raw := by
  unfold ofFixed
  split
  · next haccepted =>
    constructor
    · rintro ⟨⟩
      rfl
    · rintro rfl
      rfl
  · next hrefused =>
    refine ⟨nofun, ?_⟩
    rintro rfl
    exact absurd code.isAccepted_raw hrefused

/-- The same of `ofBytes`, where the number of octets is checked too. -/
theorem ofBytes_eq_ok : ofBytes bs = .ok code ↔ code.toBytes = bs := by
  rw [toBytes, ← FixedBytes.ofBytes_eq_ok]
  unfold ofBytes
  cases hraw : FixedBytes.ofBytes 20 bs with
  | error e => exact ⟨nofun, nofun⟩
  | ok raw =>
    simp only [ofFixed_eq_ok, Except.ok.injEq]
    exact eq_comm

/-! ## Standard codes -/

/-- The characters of standard codes, `isStandardOctet`, are ASCII. -/
theorem lt_of_isStandardOctet {b : UInt8} (h : isStandardOctet b = true) :
    b.toNat < 128 := by
  have hall : ∀ b, isStandardOctet b = true → b.toNat < 128 :=
    Bytes.octet_forall (by decide +kernel)
  exact hall b h

/-- A standard code `layout` is not the native one, which is all zeros. -/
theorem isZero_layout (hstandard : ∀ d ∈ [a, b, c], isStandardOctet d = true) :
    (layout a b c).isZero = false := by
  have ha := hstandard a List.mem_cons_self
  have hne : (a == 0) = false := by
    rw [beq_eq_false_iff_ne]
    rintro rfl
    cases ha
  show (((List.replicate 12 0 ++ [a, b, c]) ++ List.replicate 5 0).all (· == 0)) = false
  rw [List.all_append, List.all_append, List.all_cons, hne,
    Bool.false_and, Bool.and_false, Bool.false_and]

/-- The text `toText` of a standard code is its three characters. -/
theorem toText_layout (hstandard : ∀ d ∈ [a, b, c], isStandardOctet d = true)
    (haccepted : isAccepted (layout a b c) = true) :
    toText ⟨layout a b c, haccepted⟩ =
      String.ofList ([a, b, c].map fun d => Char.ofNat d.toNat) := by
  have hzero := isZero_layout hstandard
  have hhead : (layout a b c).toList.head? = some 0 := rfl
  rw [toText, isXrp, isStandard, isXrp, hzero, hhead]
  rfl

/-- A code that is neither the native one nor led by another octet than zero is a `layout`
of zeros around three characters, which are not those of the native one. -/
theorem exists_layout (haccepted : isAccepted raw = true)
    (hhead : raw.toList.head? = some 0) (hzero : raw.isZero = false) :
    ∃ a b c, raw = layout a b c ∧ (∀ d ∈ [a, b, c], isStandardOctet d = true) ∧
      [a, b, c] ≠ Bytes.ofText "XRP" := by
  have hlength := raw.length_eq
  simp only [isAccepted, hhead, hzero, bne_self_eq_false, Bool.false_or, Bool.and_eq_true,
    isPaddingClear, bne_iff_ne] at haccepted
  obtain ⟨⟨⟨hfront, hback⟩, hstandard⟩, hxrp⟩ := haccepted
  have hpart : (standardPart raw).length = 3 := by
    simp [standardPart, hlength]
  obtain ⟨a, b, c, habc⟩ := List.length_eq_three.mp hpart
  rw [habc] at hstandard hxrp
  refine ⟨a, b, c, ?_, List.all_eq_true.mp hstandard, hxrp⟩
  -- the octets around the three are zeros
  have hzeros : ∀ bs : Bytes, bs.all (· == 0) = true → bs = List.replicate bs.length 0 :=
    fun bs hbs => List.eq_replicate_iff.mpr
      ⟨rfl, fun d hd => eq_of_beq (List.all_eq_true.mp hbs d hd)⟩
  have hfront := hzeros _ hfront
  have hback := hzeros _ hback
  rw [List.length_take, hlength] at hfront
  rw [List.length_drop, hlength] at hback
  refine FixedBytes.ext ?_
  show raw.toList = List.replicate 12 0 ++ [a, b, c] ++ List.replicate 5 0
  have hsplit : raw.toList = raw.toList.take 12 ++
      (standardPart raw ++ raw.toList.drop 15) := by
    have hdrop : raw.toList.drop 15 = (raw.toList.drop 12).drop 3 := by
      rw [List.drop_drop]
    rw [standardPart, hdrop, List.take_append_drop, List.take_append_drop]
  rw [hsplit, habc, hfront, hback, List.append_assoc]
  rfl

/-! ## Texts -/

/-- Forty digits are read by `ofText` as the code whose octets they spell. -/
theorem ofText_of_digits (h : text.toUpper = Text.Hex.encode code.toBytes) :
    ofText text = .ok code := by
  have hdecode := Text.Hex.decode_eq_ok.mpr h
  have hlength : (Bytes.ofText text).length = 40 := by
    rw [Text.Hex.length_of_decode hdecode, length_toBytes]
  rw [ofText, hlength, hdecode]
  exact ofBytes_eq_ok.mpr rfl

/-- A code is read by `ofText` from its text `toText`. -/
theorem ofText_toText (code : CurrencyCode) : ofText code.toText = .ok code := by
  obtain ⟨raw, haccepted⟩ := code
  -- `toText` has three forms, and `ofText` tells them by length and name
  by_cases hzero : raw.isZero = true
  · -- the native currency
    have hraw := FixedBytes.eq_zero_of_isZero hzero
    subst hraw
    have hlength : (Bytes.ofText "XRP").length = 3 := rfl
    show ofText "XRP" = .ok xrp
    rw [ofText, hlength]
    show standard "XRP" = .ok xrp
    rw [standard, if_pos rfl]
  · rw [Bool.not_eq_true] at hzero
    by_cases hhead : raw.toList.head? = some 0
    · -- three characters
      obtain ⟨a, b, c, rfl, hstandard, hxrp⟩ := exists_layout haccepted hhead hzero
      have hoctets : Bytes.ofText (toText ⟨layout a b c, haccepted⟩) = [a, b, c] := by
        rw [toText_layout hstandard]
        exact Bytes.ofText_ofList_map fun d hd => lt_of_isStandardOctet (hstandard d hd)
      have hname : toText ⟨layout a b c, haccepted⟩ ≠ "XRP" := by
        intro hname
        rw [hname] at hoctets
        exact hxrp hoctets.symm
      rw [ofText, hoctets]
      show standard _ = _
      rw [standard, if_neg hname, hoctets]
      simp only
      rw [dif_pos ⟨List.all_eq_true.mpr hstandard, haccepted⟩]
    · -- forty digits
      have htext : toText ⟨raw, haccepted⟩ = Text.Hex.encode raw.toList := by
        simp [toText, isXrp, isStandard, hzero, hhead, FixedBytes.toHex]
      rw [htext]
      exact ofText_of_digits (Text.Hex.toUpper_encode raw.toList)

end CurrencyCode

end XrpLedger
