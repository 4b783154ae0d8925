import XrpLedger.Bytes

/-!
# Octets of texts

A text of ASCII characters has one octet for each, and it is those octets read as
characters. Nothing of the kind holds of other texts, whose characters take several
octets, none of them below 128.

- `Bytes.ofText_ofList_map`: the octets of a text of ASCII characters.
- `Text.octets`: the octets that a text is held in, without its characters.
- `Text.toList_eq_asciiChars`: the characters of a text with octets below 128.
- `Text.octets_lt_iff`: a text with octets below 128 is one with characters below 128.
-/

namespace XrpLedger

namespace Bytes

/-- What holds of `UInt8.ofNat n` for the 256 numbers `n` below 256 holds of every octet,
so a `decide` over numbers settles it. -/
theorem octet_forall {P : UInt8 → Prop} (h : ∀ n < 256, P (UInt8.ofNat n)) (b : UInt8) :
    P b := by
  have hb := h b.toNat b.toNat_lt
  rwa [UInt8.ofNat_toNat] at hb

theorem utf8EncodeChar_ofNat :
    ∀ n < 128, String.utf8EncodeChar (Char.ofNat n) = [UInt8.ofNat n] := by
  decide +kernel

/-- A text of ASCII characters has one octet for each: `Bytes.ofText` gives back the
octets that its characters were made of. -/
theorem ofText_ofList_map {bs : Bytes} (hbs : ∀ b ∈ bs, b.toNat < 128) :
    ofText (String.ofList (bs.map fun b => Char.ofNat b.toNat)) = bs := by
  rw [ofText, String.toList_ofList]
  induction bs with
  | nil => rfl
  | cons b bs ih =>
    have hb := hbs b List.mem_cons_self
    have hrest := ih fun c hc => hbs c (List.mem_cons_of_mem b hc)
    rw [List.map_cons, List.flatMap_cons, hrest, utf8EncodeChar_ofNat b.toNat hb,
      UInt8.ofNat_toNat]
    rfl

end Bytes

namespace Text

/-- The octets that a text is held in. They are those of `Bytes.ofText`, without a detour
over the characters. -/
def octets (text : String) : Bytes :=
  text.toByteArray.data.toList

/-- Both ways to the octets of a text agree. -/
theorem octets_eq_ofText (text : String) : octets text = Bytes.ofText text := by
  obtain ⟨cs, rfl⟩ : ∃ cs, text = String.ofList cs :=
    ⟨text.toList, String.ofList_toList.symm⟩
  unfold Bytes.ofText
  rw [String.toList_ofList]
  exact List.toList_data_toByteArray

/-- A text is known by its `octets`. -/
theorem octets_inj {v w : String} (h : octets v = octets w) : v = w :=
  String.toByteArray_inj.mp (ByteArray.ext (Array.toList_inj.mp h))

theorem length_octets (text : String) : (octets text).length = text.utf8ByteSize := by
  show text.toByteArray.data.toList.length = text.utf8ByteSize
  rw [Array.length_toList]
  rfl

/-- The characters of a text of ASCII characters, which are its octets. -/
def asciiChars (text : String) : List Char :=
  (octets text).map fun b => Char.ofNat b.toNat

/-- A text whose `octets` are below 128 has just the characters `asciiChars`. -/
theorem toList_eq_asciiChars {text : String} (h : ∀ b ∈ octets text, b.toNat < 128) :
    text.toList = asciiChars text := by
  have hsame : octets (String.ofList (asciiChars text)) = octets text := by
    rw [octets_eq_ofText]
    exact Bytes.ofText_ofList_map h
  calc text.toList = (String.ofList (asciiChars text)).toList := by rw [octets_inj hsame]
    _ = asciiChars text := String.toList_ofList

/-- The code of an octet read as a character is the octet. -/
theorem toNat_charOf (b : UInt8) : (Char.ofNat b.toNat).toNat = b.toNat := by
  have hvalid : b.toNat.isValidChar := .inl (Nat.lt_trans b.toNat_lt (by decide))
  unfold Char.ofNat
  rw [dif_pos hvalid]
  rfl

/-- The order of octets is that of the characters `asciiChars` that they are. -/
theorem asciiChars_lt {v w : String} (h : octets v < octets w) :
    asciiChars v < asciiChars w := by
  refine List.map_lt (fun b c hless => ?_) h
  show (Char.ofNat b.toNat).toNat < (Char.ofNat c.toNat).toNat
  rw [toNat_charOf, toNat_charOf]
  exact hless

/-- The octets `Bytes.ofText` of a text are below 128 if its characters are, and only
then. -/
theorem octets_lt_iff {text : String} :
    (∀ b ∈ Bytes.ofText text, b.toNat < 128) ↔ ∀ c ∈ text.toList, c.toNat < 128 := by
  constructor
  -- octets below 128 are the characters themselves
  · intro h c hc
    rw [← octets_eq_ofText] at h
    rw [toList_eq_asciiChars h] at hc
    obtain ⟨b, hb, rfl⟩ := List.mem_map.mp hc
    rw [toNat_charOf]
    exact h b hb
  -- a character below 128 is encoded as one octet
  · intro h b hb
    obtain ⟨c, hc, hb⟩ := List.mem_flatMap.mp hb
    have hlt := h c hc
    have hencode := Bytes.utf8EncodeChar_ofNat c.toNat hlt
    rw [Char.ofNat_toNat] at hencode
    rw [hencode, List.mem_singleton] at hb
    rw [hb, UInt8.toNat_ofNat', Nat.mod_eq_of_lt (by omega)]
    exact hlt

end Text

end XrpLedger
