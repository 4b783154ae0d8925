import XrpLedger.Error
import XrpLedger.Text.Blank
import XrpLedger.Text.Mnemonic.Words

/-!
# Mnemonics

A block of 64 bits is shown as six English words of eleven bits each. The two bits left
over hold a parity, so that most mistakes show.

- `encodeBlock`, `decodeBlock`: a block to words and back.
- `lookUp?`: the place of a word, which is found by halving the part of the list for its
  length.
- `encode`, `decode`: octets to a phrase and back. A wrong parity is reported beside the
  octets.
-/

namespace XrpLedger.Text.Mnemonic

/-- The octets of a block. -/
def blockOctets : Nat := 8

/-- The words of a block. -/
def blockWords : Nat := 6

/-- The sum of the first `count` base-4 digits of a number, from the least significant. -/
def digitSum : (count n : Nat) → Nat
  | 0, _ => 0
  | count + 1, n => n % 4 + digitSum count (n / 4)

/-- The parity of a block: the sum of its thirty-two bit pairs, modulo four. -/
def parity (block : Nat) : Nat :=
  digitSum 32 block % 4

/-- The base-2048 digits of a number, `count` of them, most significant first. -/
def indices : (count n : Nat) → List Nat
  | 0, _ => []
  | count + 1, n => indices count (n / 2048) ++ [n % 2048]

@[simp] theorem length_indices (count n : Nat) : (indices count n).length = count := by
  induction count generalizing n with
  | zero => rfl
  | succ count ih => rw [indices, List.length_append, ih, List.length_singleton]

/-- The word with an index. -/
def word (index : Nat) : String :=
  words.getD index ""

/-- The words of a block. -/
def encodeBlock (block : UInt64) : List String :=
  (indices blockWords (block.toNat * 4 + parity block.toNat)).map word

theorem length_encodeBlock (block : UInt64) :
    (encodeBlock block).length = blockWords := by
  unfold encodeBlock
  rw [List.length_map, length_indices]

/-- A character as the word list has it: upper case, and the letter that a digit
resembles. -/
def standardize (c : Char) : Char :=
  match c.toUpper with
  | '1' => 'L'
  | '0' => 'O'
  | '5' => 'S'
  | c => c

/-- A word as the word list has it. -/
def standardizeWord (w : String) : String :=
  String.ofList (w.toList.map standardize)

/-- The index of a text in the part of an ascending list from `low` up to `high`. The part
is halved until the text is met or nothing is left of the part. -/
def search (list : Array String) (text : String) (low high : Nat)
    (hhigh : high ≤ list.size) :
    Option Nat :=
  if hlow : low < high then
    let middle := (low + high) / 2
    have hmiddle : middle < list.size := by omega
    if list[middle] = text then some middle
    else if list[middle] < text then search list text (middle + 1) high hhigh
    else search list text low middle (Nat.le_of_lt hmiddle)
  else none
termination_by high - low

/-- The index of a text in the word list, in whose part for texts of this length it is
looked up. -/
def lookUp? (text : String) : Option Nat :=
  if text.utf8ByteSize = 0 then none
  else if text.utf8ByteSize ≤ 3 then
    search shortWords text 0 shortWords.size (Nat.le_refl _)
  else if text.utf8ByteSize = 4 then
    (search longWords text 0 longWords.size (Nat.le_refl _)).map (shortWords.size + ·)
  else none

/-- The index of a word, after standardization. -/
def index (w : String) : Except CodecError Nat :=
  match lookUp? (standardizeWord w) with
  | some i => .ok i
  | none => .error (.unknownWord w)

/-- The number whose base-2048 digits the words are, onto `acc`. -/
def fromWords : (acc : Nat) → List String → Except CodecError Nat
  | acc, [] => .ok acc
  | acc, w :: ws =>
    match index w with
    | .ok i => fromWords (acc * 2048 + i) ws
    | .error e => .error e

theorem fromWords_cons_of_ok {acc i : Nat} {w : String} {ws : List String}
    (h : index w = .ok i) :
    fromWords acc (w :: ws) = fromWords (acc * 2048 + i) ws := by
  rw [fromWords, h]

theorem fromWords_cons_of_error {acc : Nat} {w : String} {ws : List String}
    {e : CodecError} (h : index w = .error e) : fromWords acc (w :: ws) = .error e := by
  rw [fromWords, h]

/-- The block of six words, and whether its parity is wrong. -/
def decodeBlock (ws : List String) : Except CodecError (UInt64 × Bool) :=
  if ws.length = blockWords then
    match fromWords 0 ws with
    | .ok n => .ok (UInt64.ofNat (n / 4), parity (n / 4) != n % 4)
    | .error e => .error e
  else .error (.invalidWordCount blockWords)

/-- The words of `count` blocks. -/
def blocksToWords : (count : Nat) → Bytes → List String
  | 0, _ => []
  | count + 1, bs =>
    encodeBlock (UInt64.ofNat (Bytes.toNat (bs.take blockOctets))) ++
      blocksToWords count (bs.drop blockOctets)

theorem length_blocksToWords (count : Nat) (bs : Bytes) :
    (blocksToWords count bs).length = blockWords * count := by
  induction count generalizing bs with
  | zero => rfl
  | succ count ih =>
    rw [blocksToWords, List.length_append, length_encodeBlock, ih,
      Nat.mul_succ, Nat.add_comm]

/-- The phrase of a whole number of blocks. -/
def encode (bs : Bytes) : Except CodecError String :=
  if bs.length % blockOctets = 0 then
    .ok (" ".intercalate (blocksToWords (bs.length / blockOctets) bs))
  else .error (.invalidWordCount blockOctets)

/-- The octets of a phrase, and whether the parity of a block is wrong. -/
structure Decoded where
  bytes : Bytes
  parityError : Bool
  deriving DecidableEq

/-- The octets of `count` blocks of words. -/
def wordsToBlocks : (count : Nat) → List String → Except CodecError Decoded
  | 0, _ => .ok ⟨[], false⟩
  | count + 1, ws =>
    match decodeBlock (ws.take blockWords) with
    | .error e => .error e
    | .ok (block, bad) =>
      match wordsToBlocks count (ws.drop blockWords) with
      | .error e => .error e
      | .ok rest =>
        .ok ⟨Bytes.ofNat blockOctets block.toNat ++ rest.bytes, bad || rest.parityError⟩

/-- The first block of several is read in front of the others. -/
theorem wordsToBlocks_succ_eq_ok {count : Nat} {ws : List String} {d : Decoded} :
    wordsToBlocks (count + 1) ws = .ok d ↔
      ∃ block bad rest, decodeBlock (ws.take blockWords) = .ok (block, bad) ∧
        wordsToBlocks count (ws.drop blockWords) = .ok rest ∧
        d = ⟨Bytes.ofNat blockOctets block.toNat ++ rest.bytes,
          bad || rest.parityError⟩ := by
  rw [wordsToBlocks]
  constructor
  · intro h
    split at h
    · cases h
    next block bad hblock =>
      split at h
      · cases h
      next rest hrest => exact ⟨block, bad, rest, hblock, hrest, (Except.ok.inj h).symm⟩
  · rintro ⟨block, bad, rest, hblock, hrest, rfl⟩
    rw [hblock]
    simp only
    rw [hrest]

/-- The octets of a phrase of whole blocks, of which there must be one. -/
def decode (phrase : String) : Except CodecError Decoded :=
  let ws := splitBlanks phrase
  if ws ≠ [] ∧ ws.length % blockWords = 0 then wordsToBlocks (ws.length / blockWords) ws
  else .error (.invalidWordCount blockWords)

end XrpLedger.Text.Mnemonic
