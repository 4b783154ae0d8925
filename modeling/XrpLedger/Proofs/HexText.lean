import XrpLedger.OpaqueHash
import XrpLedger.Proofs.AsciiText

/-!
# Hexadecimal text is read back

- `Text.Hex.parse_encode`: the octets of a hexadecimal text.
- `Text.Hex.decode_eq_ok`: the texts of given octets, which differ in the case of letters
  only.
- `FixedBytes.ofHex_toHex`: a hash from its text.
-/

namespace XrpLedger

namespace Text.Hex

/-! ## Digits -/

theorem digitOctet_lt : ∀ d < 16, (digitOctet d).toNat < 128 := by
  decide

/-! ## Octets -/

/-- Each octet is written as two digits. -/
theorem length_encodeUtf8 (bs : Bytes) : (encodeUtf8 bs).length = 2 * bs.length := by
  induction bs with
  | nil => rfl
  | cons b bs ih =>
    have hlength : (encodeUtf8 (b :: bs)).length = (encodeUtf8 bs).length + 2 := rfl
    rw [hlength, ih, List.length_cons]
    omega

/-- What `encodeUtf8` writes is ASCII, so `Bytes.ofText` of the text `encode` is
`encodeUtf8`. -/
theorem encodeUtf8_lt (bs : Bytes) : ∀ b ∈ encodeUtf8 bs, b.toNat < 128 := by
  intro b hb
  obtain ⟨c, -, hdigit⟩ := List.mem_flatMap.mp hb
  have hc := c.toNat_lt
  rcases List.mem_cons.mp hdigit with rfl | hdigit
  · exact digitOctet_lt _ (by omega)
  · rw [List.mem_singleton.mp hdigit]
    exact digitOctet_lt _ (by omega)

theorem ofText_encode (bs : Bytes) : Bytes.ofText (encode bs) = encodeUtf8 bs :=
  Bytes.ofText_ofList_map (encodeUtf8_lt bs)

/-! ## Spellings -/

variable {text : String} {bs u rest : Bytes} {b hi lo : UInt8} {position : Nat}

/-- Changing the case of letters makes no character an ASCII one. -/
theorem toNat_lt_of_toUpper {c : Char} (h : c.toUpper.toNat < 128) : c.toNat < 128 := by
  unfold Char.toUpper at h
  split at h
  · next hletter =>
    have hle : c.toNat ≤ 'z'.toNat := hletter.2
    exact Nat.lt_of_le_of_lt hle (by decide)
  · exact h

/-- The value `octetValue?` of a digit depends on what it is in upper case: the digit
`upperHexDigit` of that value. -/
theorem octetValue?_eq_some {d : Nat} :
    octetValue? b = some d ↔ d < 16 ∧ (Char.ofNat b.toNat).toUpper = upperHexDigit d := by
  -- both directions are checks of all 256 octets
  have hread : ∀ b, ∀ d ∈ octetValue? b,
      d < 16 ∧ (Char.ofNat b.toNat).toUpper = upperHexDigit d :=
    Bytes.octet_forall (by decide +kernel)
  have hdigit : ∀ b : UInt8, ∀ d < 16, (Char.ofNat b.toNat).toUpper = upperHexDigit d →
      octetValue? b = some d :=
    Bytes.octet_forall (by decide +kernel)
  exact ⟨hread b d, fun h => hdigit b d h.1 h.2⟩

/-- What `encode` writes for an octet are the digits of its upper and its lower half. -/
theorem toList_encode_cons (b : UInt8) (bs : Bytes) :
    (encode (b :: bs)).toList =
      upperHexDigit (b.toNat / 16) :: upperHexDigit (b.toNat % 16) ::
      (encode bs).toList := by
  have hchar : ∀ d < 16, Char.ofNat (digitOctet d).toNat = upperHexDigit d := by decide
  have hb := b.toNat_lt
  rw [encode, encode, String.toList_ofList, String.toList_ofList, ← hchar _ (by omega),
    ← hchar (b.toNat % 16) (by omega)]
  rfl

/-- The characters of octets, in upper case. -/
def upperChars (u : Bytes) : List Char :=
  u.map fun b => (Char.ofNat b.toNat).toUpper

/-- The characters `upperChars` of a text begin with the digits of an octet exactly if
`octetValue?` gives its two halves. -/
theorem upperChars_eq_cons :
    upperChars (hi :: lo :: rest) = (encode (b :: bs)).toList ↔
      octetValue? hi = some (b.toNat / 16) ∧ octetValue? lo = some (b.toNat % 16) ∧
        upperChars rest = (encode bs).toList := by
  have hb := b.toNat_lt
  have hhigh : b.toNat / 16 < 16 := by omega
  have hlow : b.toNat % 16 < 16 := by omega
  rw [toList_encode_cons, octetValue?_eq_some, octetValue?_eq_some]
  show _ :: _ :: upperChars rest = _ ↔ _
  rw [List.cons.injEq, List.cons.injEq]
  constructor
  · rintro ⟨hhi, hlo, hrest⟩
    exact ⟨⟨hhigh, hhi⟩, ⟨hlow, hlo⟩, hrest⟩
  · rintro ⟨⟨-, hhi⟩, ⟨-, hlo⟩, hrest⟩
    exact ⟨hhi, hlo, hrest⟩

theorem decodePairs_ne_nil : decodePairs position (hi :: lo :: rest) ≠ ([], none) := by
  rw [decodePairs]
  cases octetValue? hi with
  | none => nofun
  | some h =>
    cases octetValue? lo with
    | none => nofun
    | some l => nofun

/-- What `decodePairs` reads first is one octet from two digits, its halves. -/
theorem decodePairs_eq_cons :
    decodePairs position (hi :: lo :: rest) = (b :: bs, none) ↔
      octetValue? hi = some (b.toNat / 16) ∧ octetValue? lo = some (b.toNat % 16) ∧
        decodePairs (position + 2) rest = (bs, none) := by
  have hb := b.toNat_lt
  rw [decodePairs]
  cases hhi : octetValue? hi with
  | none => exact ⟨nofun, nofun⟩
  | some h =>
    cases hlo : octetValue? lo with
    | none => exact ⟨nofun, nofun⟩
    | some l =>
      have hhigh := (octetValue?_eq_some.mp hhi).1
      have hlow := (octetValue?_eq_some.mp hlo).1
      -- an octet is put together from its halves, and from no others
      have hjoin : UInt8.ofNat (h * 16 + l) = b ↔
          h = b.toNat / 16 ∧ l = b.toNat % 16 := by
        rw [← UInt8.toNat_inj, UInt8.toNat_ofNat', Nat.mod_eq_of_lt (by omega)]
        omega
      simp only [Prod.mk.injEq, List.cons.injEq, Option.some.injEq, hjoin, and_assoc]
      rw [Prod.ext_iff]

/-- What `decodePairs` reads without a fault are the octets for which `encode` writes the
text, whatever the case of the letters. -/
theorem decodePairs_eq_iff (position : Nat) (heven : u.length % 2 = 0) :
    decodePairs position u = (bs, none) ↔ upperChars u = (encode bs).toList := by
  -- on the octets: two digits are taken from the text for each of them
  induction bs generalizing position u with
  | nil =>
    match u with
    | [] => exact ⟨fun _ => rfl, fun _ => rfl⟩
    | [_] => cases heven
    | hi :: lo :: rest => exact ⟨fun h => absurd h decodePairs_ne_nil, nofun⟩
  | cons b bs ih =>
    match u with
    | [] =>
      rw [toList_encode_cons]
      exact ⟨nofun, nofun⟩
    | [_] => cases heven
    | hi :: lo :: rest =>
      have hrest : rest.length % 2 = 0 := by
        rw [List.length_cons, List.length_cons] at heven
        omega
      rw [decodePairs_eq_cons, upperChars_eq_cons, ih _ hrest]

/-- Octets are written in twice as many digits. -/
theorem length_of_upperChars_eq (h : upperChars u = (encode bs).toList) :
    u.length = 2 * bs.length := by
  have hlength := congrArg List.length h
  rwa [encode, String.toList_ofList, List.length_map, length_encodeUtf8, upperChars,
    List.length_map] at hlength

/-- The same of `decodeUtf8`, which refuses an odd number of digits; `encode` never writes
one. -/
theorem decodeUtf8_eq_ok : decodeUtf8 u = .ok bs ↔ upperChars u = (encode bs).toList := by
  by_cases heven : u.length % 2 = 0
  · rw [← decodePairs_eq_iff 0 heven, decodeUtf8, if_neg (by omega)]
    generalize decodePairs 0 u = found
    obtain ⟨cs, _ | fault⟩ := found
    · simp
    · simp
  -- an odd text is refused, and no octets have an odd number of digits
  · have hodd : u.length % 2 = 1 := by omega
    rw [decodeUtf8, if_pos hodd]
    refine ⟨nofun, fun h => ?_⟩
    have hlength := length_of_upperChars_eq h
    omega

theorem encode_lt (bs : Bytes) : ∀ c ∈ (encode bs).toList, c.toNat < 128 := by
  refine octets_lt_iff.mp ?_
  rw [ofText_encode]
  exact encodeUtf8_lt bs

/-- For ASCII texts, `String.toUpper` works on the octets. -/
theorem toList_toUpper (h : ∀ b ∈ Bytes.ofText text, b.toNat < 128) :
    text.toUpper.toList = upperChars (Bytes.ofText text) := by
  rw [← octets_eq_ofText] at h ⊢
  rw [String.toUpper, String.toList_map, toList_eq_asciiChars h, asciiChars, List.map_map]
  rfl

/-- A text is read by `decode` as the octets whose digits `encode` it has, whatever the
case of the letters. -/
theorem decode_eq_ok : decode text = .ok bs ↔ text.toUpper = encode bs := by
  rw [decode, decodeUtf8_eq_ok, ← String.toList_inj]
  constructor
  · intro h
    -- the digits are ASCII, and case does not lead into ASCII from outside
    have hascii : ∀ b ∈ Bytes.ofText text, b.toNat < 128 := by
      intro b hb
      have hmem : (Char.ofNat b.toNat).toUpper ∈ upperChars (Bytes.ofText text) :=
        List.mem_map_of_mem hb
      rw [h] at hmem
      rw [← toNat_charOf]
      exact toNat_lt_of_toUpper (encode_lt bs _ hmem)
    rw [toList_toUpper hascii, h]
  · intro h
    have hascii : ∀ c ∈ text.toList, c.toNat < 128 := by
      intro c hc
      have hmem : c.toUpper ∈ text.toUpper.toList := by
        rw [String.toUpper, String.toList_map]
        exact List.mem_map_of_mem hc
      rw [h] at hmem
      exact toNat_lt_of_toUpper (encode_lt bs _ hmem)
    rw [← toList_toUpper (octets_lt_iff.mpr hascii), h]

theorem length_of_decode (h : decode text = .ok bs) :
    (Bytes.ofText text).length = 2 * bs.length :=
  length_of_upperChars_eq (decodeUtf8_eq_ok.mp h)

/-- The digits that `encode` writes are in upper case. -/
theorem toUpper_encode (bs : Bytes) : (encode bs).toUpper = encode bs := by
  have hdigit : ∀ d < 16, (upperHexDigit d).toUpper = upperHexDigit d := by decide
  rw [← String.toList_inj, String.toUpper, String.toList_map]
  induction bs with
  | nil => rfl
  | cons b bs ih =>
    have hb := b.toNat_lt
    rw [toList_encode_cons, List.map_cons, List.map_cons, ih, hdigit _ (by omega),
      hdigit _ (by omega)]

/-- The octets are read by `decode` from the text that `encode` writes. -/
theorem decode_encode (bs : Bytes) : decode (encode bs) = .ok bs :=
  decode_eq_ok.mpr (toUpper_encode bs)

theorem parse_encode (bs : Bytes) : parse (encode bs) = .ok bs := by
  rw [parse, decode_encode]

end Text.Hex

/-- A hash is read by `ofHex` from its text `toHex`. -/
theorem FixedBytes.ofHex_toHex {n : Nat} (a : FixedBytes n) :
    ofHex n a.toHex = .ok a := by
  rw [ofHex, toHex, Text.Hex.parse_encode]
  exact ofBytes_eq_ok.mpr rfl

end XrpLedger
