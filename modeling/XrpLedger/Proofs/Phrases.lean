import Mathlib.Data.List.Basic
import XrpLedger.Bytes.Lemmas
import XrpLedger.Proofs.WordList
import XrpLedger.Text.Positional

/-!
# Phrases and the octets they spell

A phrase is a number in base 2048, block by block, and the parity of each block is part of
the number. So a phrase in words of the list is either what some octets are written as, or
has a wrong parity.

- `splitBlanks_intercalate`: words are found again between the spaces that join them.
- `Mnemonic.indices_value`, `Mnemonic.value_indices`: numbers of so many digits in base
  2048.
- `Mnemonic.decodeBlock_eq_ok`: six words are a block and two bits more.
- `Mnemonic.wordsToBlocks_eq_ok_right`, `Mnemonic.wordsToBlocks_eq_error`: all blocks of a
  phrase.
- `Mnemonic.decode_outcome`: which phrases are read, as which octets, and why others are
  not.
-/

namespace XrpLedger.Text

/-! ## Words between blanks -/

/-- Words that are joined by single spaces are found again by `splitBlanksAfter`. -/
theorem splitBlanksAfter_intercalate {css : List (List Char)}
    (hcss : ∀ cs ∈ css, cs ≠ [] ∧ ∀ c ∈ cs, isBlank c = false) :
    splitBlanksAfter [] ([' '].intercalate css) = css := by
  induction css with
  | nil => rfl
  | cons cs css ih =>
    obtain ⟨⟨hne, hcs⟩, hrest⟩ := List.forall_mem_cons.mp hcss
    have hbegun : cs.reverse ≠ [] := fun hnil => hne (List.reverse_eq_nil_iff.mp hnil)
    cases css with
    | nil =>
      have hend := splitBlanksAfter_append hcs [] []
      rw [List.append_nil, List.append_nil, splitBlanksAfter, if_neg hbegun,
        List.reverse_reverse] at hend
      rw [List.intercalate_singleton, hend]
    | cons ds css =>
      rw [List.intercalate_cons_cons, List.append_assoc, splitBlanksAfter_append hcs,
        List.append_nil, List.singleton_append, splitBlanksAfter, if_pos (by decide),
        if_neg hbegun, List.reverse_reverse, ih hrest]

/-- The words of a phrase are found by `splitBlanks`. -/
theorem splitBlanks_intercalate {ws : List String}
    (hws : ∀ w ∈ ws, w.toList ≠ [] ∧ ∀ c ∈ w.toList, isBlank c = false) :
    splitBlanks (" ".intercalate ws) = ws := by
  have hchars : ∀ cs ∈ ws.map String.toList, cs ≠ [] ∧ ∀ c ∈ cs, isBlank c = false := by
    intro cs hcs
    obtain ⟨w, hw, rfl⟩ := List.mem_map.mp hcs
    exact hws w hw
  have hspace : " ".toList = [' '] := rfl
  unfold splitBlanks
  rw [String.toList_intercalate, hspace,
    splitBlanksAfter_intercalate hchars, List.map_map]
  refine (List.map_congr_left fun w _ => ?_).trans (List.map_id ws)
  exact String.ofList_toList

namespace Mnemonic

open Positional (value)

variable {n k count : Nat} {is : List Nat} {ws : List String}

/-! ## Numbers in base 2048 -/

theorem indices_lt (count n : Nat) : ∀ i ∈ indices count n, i < 2048 := by
  induction count generalizing n with
  | zero => exact List.forall_mem_nil _
  | succ count ih =>
    intro i hi
    rcases List.mem_append.mp hi with hi | hi
    · exact ih (n / 2048) i hi
    · rw [List.mem_singleton.mp hi]
      exact Nat.mod_lt n (by decide)

/-- The digits `indices` of a number that has no more of them spell it. -/
theorem value_indices (hn : n < 2048 ^ count) : value 2048 (indices count n) = n := by
  induction count generalizing n with
  | zero =>
    rw [Nat.pow_zero, Nat.lt_one_iff] at hn
    rw [hn]
    rfl
  | succ count ih =>
    have hfront : n / 2048 < 2048 ^ count := by
      rw [Nat.div_lt_iff_lt_mul (by decide), ← Nat.pow_succ]
      exact hn
    rw [indices, Positional.value_concat, ih hfront]
    omega

/-- A number is spelled by its digits `indices` only. -/
theorem indices_value (his : ∀ i ∈ is, i < 2048) :
    indices is.length (value 2048 is) = is := by
  induction is using List.reverseRecOn with
  | nil => rfl
  | append_singleton is i ih =>
    have hi : i < 2048 := his i (by simp)
    have hfront : (value 2048 is * 2048 + i) / 2048 = value 2048 is := by omega
    have hlast : (value 2048 is * 2048 + i) % 2048 = i := by omega
    rw [List.length_append, List.length_singleton, Positional.value_concat,
      indices, hfront, hlast, ih fun j hj => his j (List.mem_append_left _ hj)]

theorem value_lt (his : ∀ i ∈ is, i < 2048) : value 2048 is < 2048 ^ is.length := by
  induction is using List.reverseRecOn with
  | nil => decide
  | append_singleton is i ih =>
    have hi : i < 2048 := his i (by simp)
    have hfront := ih fun j hj => his j (List.mem_append_left _ hj)
    rw [List.length_append, List.length_singleton, Positional.value_concat, Nat.pow_succ]
    omega

/-! ## Words and indices -/

theorem getElem?_words_word (hi : i < 2048) : words[i]? = some (word i) := by
  rw [← size_words] at hi
  unfold word
  rw [Array.getD_eq_getD_getElem?, Array.getElem?_eq_getElem hi, Option.getD_some]

theorem word_mem_words (hi : i < 2048) : word i ∈ words :=
  Array.mem_of_getElem? (getElem?_words_word hi)

/-- A word has the `index` of the word that it stands for. -/
theorem index_eq_ok_iff {w : String} :
    index w = .ok i ↔ i < 2048 ∧ standardizeWord w = word i := by
  rw [index_eq_ok]
  constructor
  · intro h
    obtain ⟨hi, -⟩ := Array.getElem?_eq_some_iff.mp h
    rw [size_words] at hi
    rw [getElem?_words_word hi] at h
    exact ⟨hi, (Option.some.inj h).symm⟩
  · rintro ⟨hi, hw⟩
    rw [hw]
    exact getElem?_words_word hi

/-- Whether a word stands for no word of the word list. -/
def isUnknown (w : String) : Bool :=
  decide (standardizeWord w ∉ words)

/-- Words are read by `fromWords` as the number that their indices spell behind what was
read before. -/
theorem fromWords_eq_ok {acc : Nat} : fromWords acc ws = .ok n ↔
    ∃ is : List Nat, ws.map standardizeWord = is.map word ∧ (∀ i ∈ is, i < 2048) ∧
      is.foldl (fun n d => n * 2048 + d) acc = n := by
  -- the words in front are in the number already, so that it is not the same for the
  -- words behind
  induction ws generalizing acc with
  | nil =>
    rw [fromWords, Except.ok.injEq]
    constructor
    · rintro rfl
      exact ⟨[], rfl, List.forall_mem_nil _, rfl⟩
    · rintro ⟨is, his, -, rfl⟩
      cases List.map_eq_nil_iff.mp his.symm
      rfl
  | cons w ws ih =>
    constructor
    · intro h
      cases hi : index w with
      | error cause =>
        rw [fromWords_cons_of_error hi] at h
        cases h
      | ok i =>
        rw [fromWords_cons_of_ok hi] at h
        obtain ⟨hlt, hw⟩ := index_eq_ok_iff.mp hi
        obtain ⟨is, his, hlts, hn⟩ := ih.mp h
        refine ⟨i :: is, ?_, List.forall_mem_cons.mpr ⟨hlt, hlts⟩, hn⟩
        rw [List.map_cons, List.map_cons, hw, his]
    · rintro ⟨_ | ⟨i, is⟩, his, hlts, hn⟩
      · cases his
      · obtain ⟨hw, hws⟩ := List.cons.inj his
        obtain ⟨hlt, hlts⟩ := List.forall_mem_cons.mp hlts
        rw [fromWords_cons_of_ok (index_eq_ok_iff.mpr ⟨hlt, hw⟩)]
        exact ih.mpr ⟨is, hws, hlts, hn⟩

theorem error_unknownWord_iff {α : Type} {w : String} {e : CodecError} :
    (Except.error (.unknownWord w) : Except CodecError α) = .error e ↔
      ∃ v, some w = some v ∧ e = .unknownWord v := by
  constructor
  · intro h
    cases h
    exact ⟨w, rfl, rfl⟩
  · rintro ⟨v, hv, rfl⟩
    cases hv
    rfl

/-- Words are refused by `fromWords` for the first one that is unknown. -/
theorem fromWords_eq_error (acc : Nat) {e : CodecError} : fromWords acc ws = .error e ↔
    ∃ w, ws.find? isUnknown = some w ∧ e = .unknownWord w := by
  induction ws generalizing acc with
  | nil =>
    refine iff_of_false nofun ?_
    rintro ⟨w, hw, -⟩
    cases hw
  | cons w ws ih =>
    cases hw : index w with
    | ok i =>
      have hmem : standardizeWord w ∈ words := Array.mem_of_getElem? (index_eq_ok.mp hw)
      have hknown : ¬ isUnknown w = true := fun h => of_decide_eq_true h hmem
      rw [fromWords_cons_of_ok hw, List.find?_cons_of_neg hknown]
      exact ih _
    | error cause =>
      obtain ⟨hnot, rfl⟩ := index_eq_error.mp hw
      have hunknown : isUnknown w = true := decide_eq_true hnot
      rw [fromWords_cons_of_error hw, List.find?_cons_of_pos hunknown]
      exact error_unknownWord_iff

/-! ## Blocks -/

variable {block : UInt64} {bad : Bool}

theorem parity_lt (n : Nat) : parity n < 4 :=
  Nat.mod_lt _ (by decide)

/-- Six words are read by `decodeBlock` as a block if they are the sixty-six bits of the
block and two bits more, of which it is told whether they are the `parity`. -/
theorem decodeBlock_eq_ok : decodeBlock ws = .ok (block, bad) ↔
    ∃ r < 4, ws.map standardizeWord =
    (indices blockWords (block.toNat * 4 + r)).map word ∧
      bad = (parity block.toNat != r) := by
  have hbase : 2048 ^ blockWords = 2 ^ 64 * 4 := by decide
  constructor
  · intro h
    unfold decodeBlock at h
    split at h
    next hlength =>
      split at h
      next n hn =>
        obtain ⟨is, his, hlt, hvalue⟩ := fromWords_eq_ok.mp hn
        obtain ⟨hblock, hbad⟩ := Prod.mk.inj (Except.ok.inj h)
        have hcount : is.length = blockWords := by
          rw [← hlength, ← List.length_map (f := word), ← his, List.length_map]
        -- six words are no more than the block and two bits, so that no bit of the block
        -- is lost
        have hn : n < 2 ^ 64 * 4 := by
          rw [← hvalue, ← hbase, ← hcount]
          exact value_lt hlt
        have hfront : block.toNat = n / 4 := by
          rw [← hblock]
          refine UInt64.toNat_ofNat_of_lt' ?_
          show n / 4 < 2 ^ 64
          omega
        have hdigits : indices blockWords n = is := by
          rw [← hcount, ← hvalue]
          exact indices_value hlt
        have hsplit : n / 4 * 4 + n % 4 = n := Nat.div_add_mod' n 4
        refine ⟨n % 4, Nat.mod_lt n (by decide), ?_, ?_⟩
        · rw [hfront, hsplit, hdigits, his]
        · rw [hfront, hbad]
      · cases h
    · cases h
  · rintro ⟨r, hr, hws, hbad⟩
    have hblock : block.toNat < 2 ^ 64 := block.toNat_lt
    have hlength : ws.length = blockWords := by
      have hsame := congrArg List.length hws
      rwa [List.length_map, List.length_map, length_indices] at hsame
    have hread : fromWords 0 ws = .ok (block.toNat * 4 + r) := by
      refine fromWords_eq_ok.mpr ⟨_, hws, indices_lt _ _, ?_⟩
      exact value_indices (by omega)
    have hfront : (block.toNat * 4 + r) / 4 = block.toNat := by omega
    have hrest : (block.toNat * 4 + r) % 4 = r := by omega
    unfold decodeBlock
    rw [if_pos hlength, hread]
    simp only
    rw [hfront, hrest, hbad, UInt64.ofNat_toNat]

/-- Six words are read by `decodeBlock` as a block with the right parity if the block is
written by `encodeBlock` as them. -/
theorem decodeBlock_eq_ok_right :
    decodeBlock ws = .ok (block, false) ↔ ws.map standardizeWord = encodeBlock block := by
  rw [decodeBlock_eq_ok]
  constructor
  · rintro ⟨r, -, hws, hparity⟩
    have hr : parity block.toNat = r := bne_eq_false_iff_eq.mp hparity.symm
    rw [hws, ← hr]
    rfl
  · intro hws
    exact ⟨parity block.toNat, parity_lt _, hws, (bne_self_eq_false _).symm⟩

/-- Six words are refused by `decodeBlock` for the first one that is unknown. -/
theorem decodeBlock_eq_error (hlength : ws.length = blockWords) {e : CodecError} :
    decodeBlock ws = .error e ↔
    ∃ w, ws.find? isUnknown = some w ∧ e = .unknownWord w := by
  rw [← fromWords_eq_error 0]
  unfold decodeBlock
  rw [if_pos hlength]
  cases fromWords 0 ws with
  | ok n => exact iff_of_false nofun nofun
  | error cause => rw [Except.error.injEq, Except.error.injEq]

/-! ## All blocks -/

variable {bs : Bytes} {d : Decoded} {e : CodecError}

/-- The lengths of the first block and of the others. -/
theorem length_take_drop {α : Type} {k : Nat} {xs : List α}
    (h : xs.length = k * (count + 1)) :
    (xs.take k).length = k ∧ (xs.drop k).length = k * count := by
  rw [List.length_take, List.length_drop, h, Nat.mul_succ, Nat.add_sub_cancel]
  exact ⟨Nat.min_eq_left (Nat.le_add_left k _), rfl⟩

/-- The octets of a block are the number that they spell. -/
theorem ofNat_toNat_block (hlength : bs.length = blockOctets) :
    Bytes.ofNat blockOctets (UInt64.ofNat bs.toNat).toNat = bs := by
  have hlt : bs.toNat < 2 ^ 64 := by
    have hbound := Bytes.toNat_lt bs
    rw [hlength] at hbound
    exact hbound
  rw [UInt64.toNat_ofNat_of_lt' hlt, ← hlength, Bytes.ofNat_toNat]

theorem toNat_ofNat_block (block : UInt64) :
    UInt64.ofNat (Bytes.toNat (Bytes.ofNat blockOctets block.toNat)) = block := by
  have hlt : block.toNat < 256 ^ blockOctets := block.toNat_lt
  rw [Bytes.toNat_ofNat, Nat.mod_eq_of_lt hlt, UInt64.ofNat_toNat]

/-- Words are read by `wordsToBlocks` as octets with the right parity if `blocksToWords`
writes the octets as them. -/
theorem wordsToBlocks_eq_ok_right (hcount : ws.length = blockWords * count) :
    wordsToBlocks count ws = .ok ⟨bs, false⟩ ↔
      bs.length = blockOctets * count ∧
      ws.map standardizeWord = blocksToWords count bs := by
  -- the octets of a block and its words both come off the front
  induction count generalizing ws bs with
  | zero =>
    have hws : ws = [] := List.eq_nil_of_length_eq_zero hcount
    rw [wordsToBlocks, hws, blocksToWords, Nat.mul_zero, List.length_eq_zero_iff]
    constructor
    · intro h
      cases h
      exact ⟨rfl, rfl⟩
    · rintro ⟨rfl, -⟩
      rfl
  | succ count ih =>
    obtain ⟨htake, hdrop⟩ := length_take_drop hcount
    rw [wordsToBlocks_succ_eq_ok]
    constructor
    · rintro ⟨block, bad, rest, hblock, hrest, hd⟩
      obtain ⟨hbytes, hflag⟩ := Decoded.mk.inj hd
      obtain ⟨hbad, hright⟩ := Bool.or_eq_false_iff.mp hflag.symm
      have hothers : wordsToBlocks count (ws.drop blockWords) =
          .ok ⟨rest.bytes, false⟩ := by
        rw [hrest, ← hright]
      obtain ⟨hlength, hwords⟩ := (ih hdrop).mp hothers
      rw [hbad] at hblock
      have hfirst := decodeBlock_eq_ok_right.mp hblock
      have hoctets : (Bytes.ofNat blockOctets block.toNat).length = blockOctets :=
        Bytes.length_ofNat _ _
      refine ⟨?_, ?_⟩
      · rw [hbytes, List.length_append, hoctets, hlength, Nat.mul_succ, Nat.add_comm]
      · rw [blocksToWords, hbytes, List.take_left' hoctets, List.drop_left' hoctets,
          toNat_ofNat_block, ← hfirst, ← hwords, ← List.map_append, List.take_append_drop]
    · rintro ⟨hlength, hwords⟩
      obtain ⟨hfront, hback⟩ := length_take_drop hlength
      rw [blocksToWords, ← List.take_append_drop blockWords ws, List.map_append] at hwords
      obtain ⟨hfirst, hothers⟩ := List.append_inj hwords (by
        rw [List.length_map, htake, length_encodeBlock])
      refine ⟨_, false, ⟨bs.drop blockOctets, false⟩, decodeBlock_eq_ok_right.mpr hfirst,
        (ih hdrop).mpr ⟨hback, hothers⟩, ?_⟩
      rw [ofNat_toNat_block hfront, List.take_append_drop]
      rfl

/-- Words are refused by `wordsToBlocks` for the first of them that stands for no word of
the word list. -/
theorem wordsToBlocks_eq_error (hcount : ws.length = blockWords * count) :
    wordsToBlocks count ws = .error e ↔
      ∃ w, ws.find? isUnknown = some w ∧ e = .unknownWord w := by
  induction count generalizing ws with
  | zero =>
    have hws : ws = [] := List.eq_nil_of_length_eq_zero hcount
    rw [hws]
    refine iff_of_false nofun ?_
    rintro ⟨w, hw, -⟩
    cases hw
  | succ count ih =>
    obtain ⟨htake, hdrop⟩ := length_take_drop hcount
    -- the first unknown word is in the first block, or it is the first one of the others
    have hfind : ws.find? isUnknown = ((ws.take blockWords).find? isUnknown).or
        ((ws.drop blockWords).find? isUnknown) := by
      rw [← List.find?_append, List.take_append_drop]
    rw [wordsToBlocks, hfind]
    cases hblock : decodeBlock (ws.take blockWords) with
    | error cause =>
      obtain ⟨w, hw, rfl⟩ := (decodeBlock_eq_error htake).mp hblock
      rw [hw, Option.some_or]
      exact error_unknownWord_iff
    | ok p =>
      have hnone : (ws.take blockWords).find? isUnknown = none := by
        by_contra hsome
        obtain ⟨w, hw⟩ := Option.ne_none_iff_exists'.mp hsome
        have hrefused := (decodeBlock_eq_error htake).mpr ⟨w, hw, rfl⟩
        rw [hblock] at hrefused
        cases hrefused
      rw [hnone, Option.none_or, ← ih hdrop]
      obtain ⟨block, bad⟩ := p
      simp only
      cases wordsToBlocks count (ws.drop blockWords) with
      | ok rest =>
        constructor
        · intro h
          cases h
        · intro h
          cases h
      | error cause => rfl

/-! ## Phrases -/

variable {phrase text : String}

/-- The words that `blocksToWords` writes are from the word list. -/
theorem mem_words_of_mem_blocksToWords {w : String} (hw : w ∈ blocksToWords count bs) :
    w ∈ words := by
  induction count generalizing bs with
  | zero => cases hw
  | succ count ih =>
    rcases List.mem_append.mp hw with hw | hw
    · obtain ⟨i, hi, rfl⟩ := List.mem_map.mp hw
      exact word_mem_words (indices_lt _ _ i hi)
    · exact ih hw

theorem isBlank_of_isUpper {c : Char} (hc : c.isUpper = true) : isBlank c = false := by
  have hcode : 65 ≤ c.toNat ∧ c.toNat ≤ 90 := of_decide_eq_true hc
  simp only [isBlank, Bool.or_eq_false_iff, Bool.and_eq_false_iff, beq_eq_false_iff_ne,
    decide_eq_false_iff_not]
  omega

/-- A phrase that `encode` writes is the words `blocksToWords` of the octets. -/
theorem encode_eq_ok : encode bs = .ok text ↔
    ∃ count, bs.length = blockOctets * count ∧
    text = " ".intercalate (blocksToWords count bs) := by
  have hoctets : 0 < blockOctets := by decide
  unfold encode
  by_cases hmod : bs.length % blockOctets = 0
  · obtain ⟨count, hcount⟩ := Nat.dvd_of_mod_eq_zero hmod
    have hdiv : bs.length / blockOctets = count := by
      rw [hcount, Nat.mul_div_cancel_left _ hoctets]
    rw [if_pos hmod, hdiv, Except.ok.injEq]
    constructor
    · rintro rfl
      exact ⟨count, hcount, rfl⟩
    · rintro ⟨count', hcount', rfl⟩
      rw [Nat.eq_of_mul_eq_mul_left hoctets (hcount.symm.trans hcount')]
  · rw [if_neg hmod]
    refine iff_of_false nofun ?_
    rintro ⟨count, hcount, -⟩
    exact hmod (by rw [hcount, Nat.mul_mod_right])

/-- The words `blocksToWords` of octets are found again by `splitBlanks` in
their phrase. -/
theorem splitBlanks_blocksToWords (count : Nat) (bs : Bytes) :
    splitBlanks (" ".intercalate (blocksToWords count bs)) = blocksToWords count bs := by
  refine splitBlanks_intercalate fun w hw => ?_
  obtain ⟨hne, hupper⟩ := isUpper_of_mem_words (mem_words_of_mem_blocksToWords hw)
  exact ⟨hne, fun c hc => isBlank_of_isUpper (hupper c hc)⟩

/-- A phrase has words for whole blocks, of which there must be one. -/
def IsWhole (phrase : String) : Prop :=
  splitBlanks phrase ≠ [] ∧ (splitBlanks phrase).length % blockWords = 0

/-- A phrase that `IsWhole` has words for a number of blocks. -/
theorem isWhole_iff : IsWhole phrase ↔
    ∃ count, 0 < count ∧ (splitBlanks phrase).length = blockWords * count := by
  unfold IsWhole blockWords
  rw [← List.length_pos_iff]
  constructor
  · rintro ⟨hpos, hmod⟩
    exact ⟨(splitBlanks phrase).length / 6, by omega, by omega⟩
  · rintro ⟨count, hpos, hcount⟩
    omega

/-- A whole phrase is read by `decode` block by block. -/
theorem decode_of_count (hpos : 0 < count)
    (hcount : (splitBlanks phrase).length = blockWords * count) :
    decode phrase = wordsToBlocks count (splitBlanks phrase) := by
  have hwhole : IsWhole phrase := isWhole_iff.mpr ⟨count, hpos, hcount⟩
  have hdiv : (splitBlanks phrase).length / blockWords = count := by
    rw [hcount, Nat.mul_div_cancel_left _ (by decide)]
  rw [← hdiv]
  exact if_pos hwhole

theorem decode_of_not_isWhole (h : ¬ IsWhole phrase) :
    decode phrase = .error (.invalidWordCount blockWords) :=
  if_neg h

/-- A phrase is read by `decode` as octets with the right parity if `encode` writes the
octets as its words. -/
theorem decode_eq_ok_right : decode phrase = .ok ⟨bs, false⟩ ↔
    bs ≠ [] ∧ bs.length % blockOctets = 0 ∧ ∃ text, encode bs = .ok text ∧
      (splitBlanks phrase).map standardizeWord = splitBlanks text := by
  constructor
  · intro h
    by_cases hwhole : IsWhole phrase
    · obtain ⟨count, hpos, hcount⟩ := isWhole_iff.mp hwhole
      rw [decode_of_count hpos hcount, wordsToBlocks_eq_ok_right hcount] at h
      obtain ⟨hoctets, hwords⟩ := h
      refine ⟨?_, ?_, _, encode_eq_ok.mpr ⟨count, hoctets, rfl⟩, ?_⟩
      · rintro rfl
        unfold blockOctets at hoctets
        rw [List.length_nil] at hoctets
        omega
      · rw [hoctets, Nat.mul_mod_right]
      · rw [hwords, splitBlanks_blocksToWords]
    · rw [decode_of_not_isWhole hwhole] at h
      cases h
  · rintro ⟨hne, -, text, htext, hwords⟩
    obtain ⟨count, hoctets, rfl⟩ := encode_eq_ok.mp htext
    rw [splitBlanks_blocksToWords] at hwords
    have hcount : (splitBlanks phrase).length = blockWords * count := by
      have hsame := congrArg List.length hwords
      rwa [List.length_map, length_blocksToWords] at hsame
    have hpos : 0 < count := by
      rw [Nat.pos_iff_ne_zero]
      rintro rfl
      exact hne (List.eq_nil_of_length_eq_zero hoctets)
    rw [decode_of_count hpos hcount]
    exact (wordsToBlocks_eq_ok_right hcount).mpr ⟨hoctets, hwords⟩

/-- A phrase is refused by `decode` for the number of its words, or else for the first
unknown one. -/
theorem decode_eq_error : decode phrase = .error e ↔
    ¬ IsWhole phrase ∧ e = .invalidWordCount blockWords ∨
      IsWhole phrase ∧ ∃ w, (splitBlanks phrase).find? isUnknown = some w ∧
      e = .unknownWord w := by
  by_cases hwhole : IsWhole phrase
  · obtain ⟨count, hpos, hcount⟩ := isWhole_iff.mp hwhole
    rw [decode_of_count hpos hcount, wordsToBlocks_eq_error hcount]
    simp only [hwhole, not_true, false_and, true_and, false_or]
  · rw [decode_of_not_isWhole hwhole, Except.error.injEq, eq_comm]
    simp only [hwhole, not_false_eq_true, false_and, true_and, or_false]

end Mnemonic

end XrpLedger.Text
