import XrpLedger.Proofs.GuardedTexts

/-!
# What base-58 text spells

A base-58 text and its octets are two numerals of one number, with one count of zeros in
front of it. This alone tells which texts are read, and as which octets: each byte string
has its text, and each text in the digits of base 58 has its octets.

- `Text.Base58.Spells`: a text and octets that are numerals of one number.
- `Text.Base58.spells_iff`: the text of octets is the one that spells them.
- `Text.Base58Check.reads_spelled`: what is read, with and without a checksum.
-/

namespace XrpLedger.Text

namespace Base58

variable {text : String} {bs : Bytes}

/-- A text in the digits of base 58 and a byte string that are numerals of one number,
behind as many zeros. -/
structure Spells (text : String) (bs : Bytes) : Prop where
  mem_alphabet : ∀ c ∈ text.toList, c ∈ alphabet
  zeros : (text.toList.takeWhile (· == 'r')).length = (bs.takeWhile (· == 0)).length
  number : Positional.value 58 (text.toList.map alphabet.idxOf) = bs.toNat

/-! ## Digits of a text -/

/-- The character `digitChar` of a digit stands at the place of the digit in the
`alphabet`. -/
theorem idxOf_digitChar {d : Nat} (hd : d < 58) : alphabet.idxOf (digitChar d) = d := by
  rw [List.idxOf_eq_getD_idxOf?, idxOf?_digitChar d hd, Option.getD_some]

theorem digitChar_mem {d : Nat} (hd : d < 58) : digitChar d ∈ alphabet := by
  rw [← List.isSome_idxOf?, idxOf?_digitChar d hd]
  rfl

/-- Only the zero is written as `'r'` by `digitChar`. -/
theorem digitChar_beq_zero {d : Nat} (hd : d < 58) : (digitChar d == 'r') = (d == 0) := by
  have hzero : digitChar 0 = 'r' := rfl
  rw [← hzero, Bool.eq_iff_iff, beq_iff_eq, beq_iff_eq]
  constructor
  · intro h
    have hindex := congrArg alphabet.idxOf h
    rwa [idxOf_digitChar hd, idxOf_digitChar (by decide)] at hindex
  · rintro rfl
    rfl

/-- The characters of the `alphabet` are the `digitChar` of digits. -/
theorem exists_digits {cs : List Char} (hcs : ∀ c ∈ cs, c ∈ alphabet) :
    ∃ ds : List Nat, cs = ds.map digitChar ∧ ∀ d ∈ ds, d < 58 := by
  have hdigit : ∀ c ∈ cs, alphabet.idxOf c < 58 ∧ digitChar (alphabet.idxOf c) = c := by
    intro c hc
    have hlt : alphabet.idxOf c < alphabet.length :=
      List.idxOf_lt_length_iff.mpr (hcs c hc)
    refine ⟨hlt, ?_⟩
    rw [digitChar, List.getD_eq_getElem?_getD, List.getElem?_eq_getElem hlt,
      Option.getD_some]
    exact List.getElem_idxOf hlt
  refine ⟨cs.map alphabet.idxOf, ?_, ?_⟩
  · rw [List.map_map]
    exact ((List.map_congr_left fun c hc => (hdigit c hc).2).trans (List.map_id cs)).symm
  · intro d hd
    obtain ⟨c, hc, rfl⟩ := List.mem_map.mp hd
    exact (hdigit c hc).1

/-- The `leadingZeros` of a digit list are those of its text. -/
theorem length_takeWhile_map_digitChar {ds : List Nat} (hds : ∀ d ∈ ds, d < 58) :
    ((ds.map digitChar).takeWhile (· == 'r')).length = leadingZeros ds := by
  unfold leadingZeros
  induction ds with
  | nil => rfl
  | cons d ds ih =>
    obtain ⟨hd, hrest⟩ := List.forall_mem_cons.mp hds
    rw [List.map_cons, List.takeWhile_cons, List.takeWhile_cons, digitChar_beq_zero hd]
    -- the first digit is a zero and counts, or it ends the zeros
    by_cases hzero : (d == 0) = true
    · rw [if_pos hzero, if_pos hzero, List.length_cons, List.length_cons, ih hrest]
    · rw [if_neg hzero, if_neg hzero]
      rfl

/-- The `leadingZeros` of octets are their zero octets in front. -/
theorem length_takeWhile_octets (bs : Bytes) :
    (bs.takeWhile (· == 0)).length = leadingZeros (bs.map UInt8.toNat) := by
  have hzero : (fun b : UInt8 => b == 0) = (· == 0) ∘ UInt8.toNat := by
    funext b
    show (b == 0) = (b.toNat == 0)
    rw [Bool.eq_iff_iff, beq_iff_eq, beq_iff_eq]
    exact UInt8.toNat_inj.symm
  rw [leadingZeros, List.takeWhile_map, List.length_map, hzero]

/-- The number of a byte string is its `Positional.value` in base 256. -/
theorem value_octets (bs : Bytes) :
    Positional.value 256 (bs.map UInt8.toNat) = bs.toNat :=
  List.foldl_map

/-! ## Texts -/

/-- Whether digits are `Spells` of octets is told by the zeros and the number. -/
theorem spells_digits {ds : List Nat} (hds : ∀ d ∈ ds, d < 58) :
    Spells (String.ofList (ds.map digitChar)) bs ↔
      leadingZeros ds = leadingZeros (bs.map UInt8.toNat) ∧
        Positional.value 58 ds = Positional.value 256 (bs.map UInt8.toNat) := by
  have hindices : (ds.map digitChar).map alphabet.idxOf = ds := by
    rw [List.map_map]
    exact (List.map_congr_left fun d hd => idxOf_digitChar (hds d hd)).trans
      (List.map_id ds)
  rw [← length_takeWhile_map_digitChar hds, ← length_takeWhile_octets, value_octets]
  constructor
  · rintro ⟨-, hzeros, hnumber⟩
    rw [String.toList_ofList] at hzeros hnumber
    rw [hindices] at hnumber
    exact ⟨hzeros, hnumber⟩
  · rintro ⟨hzeros, hnumber⟩
    refine ⟨?_, ?_, ?_⟩
    · intro c hc
      rw [String.toList_ofList] at hc
      obtain ⟨d, hd, rfl⟩ := List.mem_map.mp hc
      exact digitChar_mem (hds d hd)
    · rw [String.toList_ofList]
      exact hzeros
    · rw [String.toList_ofList, hindices]
      exact hnumber

/-- The text `encode` of octets is the one that `Spells` them. -/
theorem spells_iff : Spells text bs ↔ text = encode bs := by
  constructor
  · intro h
    -- the digits of the text are those of the octets in the other base
    obtain ⟨ds, htext, hds⟩ := exists_digits h.mem_alphabet
    have hspelled : text = String.ofList (ds.map digitChar) := by
      rw [← htext, String.ofList_toList]
    rw [hspelled, spells_digits hds] at h
    obtain ⟨hzeros, hnumber⟩ := h
    rw [hspelled, encode, rebase, ← hzeros, ← hnumber, ← rebase,
      rebase_self (by decide) hds]
  · rintro rfl
    refine (spells_digits (rebase_lt (by decide) _)).mpr ⟨?_, ?_⟩
    · exact leadingZeros_rebase (by decide) 256 _
    · exact value_rebase (by decide) 256 _

end Base58

/-- Octets are read by `Base58.decode` from the one text that `Base58.Spells` them, and by
`Base58Check.decode` from the one that spells them with their `Hash.checksum` behind. -/
theorem Base58Check.reads_spelled (text : String) (bs : Bytes) :
    (Base58.decode text = .ok bs ↔ text = Base58.encode bs) ∧
    (Base58Check.decode text = .ok bs ↔ text = Base58Check.encode bs) ∧
    (text = Base58.encode bs ↔ Base58.Spells text bs) ∧
    (text = Base58Check.encode bs ↔ Base58.Spells text (bs ++ Hash.checksum bs)) := by
  refine ⟨Base58.decode_eq_ok, decode_eq_ok, ?_, ?_⟩
  · exact Base58.spells_iff.symm
  · exact Base58.spells_iff.symm

end XrpLedger.Text
