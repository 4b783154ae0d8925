import XrpLedger.Key.Seed
import XrpLedger.Proofs.Phrases

/-!
# Mnemonics of seeds

A seed has sixteen octets, so two blocks and twelve words. The mnemonic does not tell the
type of the key, which has to be known beside it.

- `Text.Mnemonic.standardizeWord_of_mem_words`: the words of the word list stand for
  themselves.
- `Seed.ofMnemonic_eq_ok`, `Seed.ofMnemonic_eq_ok_right`: a phrase is read as a seed
  through its octets, and so through its words.
- `Seed.mnemonic_faithful`: a seed is read from its mnemonic, and from the phrases that
  stand for it only.
-/

namespace XrpLedger

namespace Text.Mnemonic

variable {w text : String} {bs : Bytes}

/-- The words of the word list, which are made of capital letters, stand for themselves:
`standardizeWord` does not change them. -/
theorem standardizeWord_of_mem_words (hw : w ∈ words) : standardizeWord w = w := by
  -- the codes from 65 to 90 are those of the capital letters
  have hcode : ∀ n < 91, 65 ≤ n → standardize (Char.ofNat n) = Char.ofNat n := by decide
  have hcapital : ∀ c ∈ w.toList, standardize c = c := by
    intro c hc
    have hrange : 65 ≤ c.toNat ∧ c.toNat ≤ 90 :=
      of_decide_eq_true ((isUpper_of_mem_words hw).2 c hc)
    have hsame := hcode c.toNat (Nat.lt_succ_of_le hrange.2) hrange.1
    rwa [Char.ofNat_toNat] at hsame
  rw [standardizeWord, List.map_congr_left hcapital, List.map_id', String.ofList_toList]

/-- The phrase that `encode` makes of octets stands for itself. -/
theorem map_standardizeWord_of_encode (h : encode bs = .ok text) :
    (splitBlanks text).map standardizeWord = splitBlanks text := by
  obtain ⟨count, -, rfl⟩ := encode_eq_ok.mp h
  rw [splitBlanks_blocksToWords]
  refine (List.map_congr_left fun w hw => ?_).trans (List.map_id _)
  exact standardizeWord_of_mem_words (mem_words_of_mem_blocksToWords hw)

end Text.Mnemonic

namespace Seed

open Text (splitBlanks)
open Text.Mnemonic (standardizeWord)

variable {keyType : KeyType} {phrase : String} {seed : Seed} {bs : Bytes}

/-- The seeds that `ofBytes` makes have the key type and the octets that it is given. -/
theorem ofBytes_eq_ok :
    ofBytes keyType bs = .ok seed ↔
    seed.keyType = keyType ∧ seed.entropy.toList = bs := by
  obtain ⟨k, entropy⟩ := seed
  rw [← FixedBytes.ofBytes_eq_ok, ofBytes]
  cases FixedBytes.ofBytes 16 bs with
  | error e => exact iff_of_false nofun fun h => nomatch h.2
  | ok a =>
    rw [Except.ok.injEq, Except.ok.injEq, mk.injEq, eq_comm (a := keyType)]

/-- The octets of a seed are whole blocks, so that `toMnemonic` does not fail. -/
theorem exists_toMnemonic (seed : Seed) : ∃ text, seed.toMnemonic = .ok text := by
  refine ⟨_, Text.Mnemonic.encode_eq_ok.mpr ⟨2, ?_, rfl⟩⟩
  rw [List.length_reverse, seed.entropy.length_eq]
  rfl

/-- A phrase is read by `ofMnemonic` as a seed if `Text.Mnemonic.decode` reads it as the
octets of the seed in reverse, with the right parity. -/
theorem ofMnemonic_eq_ok : ofMnemonic keyType phrase = .ok seed ↔
    seed.keyType = keyType ∧
      Text.Mnemonic.decode phrase = .ok ⟨seed.entropy.toList.reverse, false⟩ := by
  unfold ofMnemonic
  cases Text.Mnemonic.decode phrase with
  | error e => exact iff_of_false nofun fun h => nomatch h.2
  | ok decoded =>
    obtain ⟨bytes, parityError⟩ := decoded
    -- a phrase of the wrong parity is refused, whatever its octets are
    cases parityError with
    | true => exact iff_of_false nofun fun h => nomatch h.2
    | false =>
      show ofBytes keyType bytes.reverse = .ok seed ↔ _
      rw [ofBytes_eq_ok, Except.ok.injEq, Text.Mnemonic.Decoded.mk.injEq,
        and_iff_left rfl]
      refine and_congr_right' ?_
      rw [eq_comm, List.reverse_eq_iff]

/-- A phrase is read by `ofMnemonic` as a seed exactly if its words stand for the words of
the phrase `toMnemonic` of the seed. -/
theorem ofMnemonic_eq_ok_right : ofMnemonic keyType phrase = .ok seed ↔
    seed.keyType = keyType ∧ ∃ text, seed.toMnemonic = .ok text ∧
      (splitBlanks phrase).map standardizeWord = splitBlanks text := by
  have hlength : seed.entropy.toList.reverse.length = 16 := by
    rw [List.length_reverse, seed.entropy.length_eq]
  have hne : seed.entropy.toList.reverse ≠ [] := by
    intro hnil
    rw [hnil] at hlength
    cases hlength
  have hwhole : seed.entropy.toList.reverse.length % Text.Mnemonic.blockOctets = 0 := by
    rw [hlength]
    rfl
  rw [ofMnemonic_eq_ok, Text.Mnemonic.decode_eq_ok_right, and_iff_right hne,
    and_iff_right hwhole]
  rfl

/-- A seed is read by `ofMnemonic` from its phrase `toMnemonic`. A phrase is read as a
seed of the type that is asked for, and only if its words, in upper case and with letters
for the digits that resemble them, are the words of that phrase of the seed. -/
theorem mnemonic_faithful :
    (∀ seed : Seed, ∃ text, seed.toMnemonic = .ok text ∧
      ofMnemonic seed.keyType text = .ok seed) ∧
    ∀ (keyType : KeyType) (phrase : String) (seed : Seed),
      ofMnemonic keyType phrase = .ok seed ↔ seed.keyType = keyType ∧
        ∃ text, seed.toMnemonic = .ok text ∧
          (splitBlanks phrase).map standardizeWord = splitBlanks text := by
  refine ⟨fun seed => ?_, fun _ _ _ => ofMnemonic_eq_ok_right⟩
  obtain ⟨text, htext⟩ := seed.exists_toMnemonic
  have hstands := Text.Mnemonic.map_standardizeWord_of_encode htext
  exact ⟨text, htext, ofMnemonic_eq_ok_right.mpr ⟨rfl, text, htext, hstands⟩⟩

end Seed

end XrpLedger
