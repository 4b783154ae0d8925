import Mathlib.Data.List.Chain
import XrpLedger.Proofs.AsciiText
import XrpLedger.Text.Mnemonic.Basic

/-!
# Looking words up

The word list is in two parts, by the length of the words, and each part is in ascending
order. So a text is met by halving the part for its length if it is in the list at all,
and it is met at one place only.

- `search_eq_some`: what halving finds in an ascending list.
- `IsPart`, `isPart_words`: what the two parts have in common.
- `isUpper_of_mem_words`: the words are made of capital letters.
- `lookUp?_eq_some`, `index_eq_ok`: a word is found exactly at its place in the list.
-/

namespace XrpLedger.Text

namespace Mnemonic

variable {list : Array String} {text : String} {i j low high : Nat}

/-! ## Halving -/

/-- Texts further back in an ascending list are greater. -/
theorem getElem_lt_iff (hlist : list.toList.Pairwise (· < ·)) (hi : i < list.size)
    (hj : j < list.size) : list[i] < list[j] ↔ i < j := by
  have hless : ∀ (i j : Nat) (hi : i < list.size) (hj : j < list.size), i < j →
      list[i] < list[j] := List.pairwise_iff_getElem.mp hlist
  constructor
  · intro h
    rcases Nat.lt_trichotomy i j with hij | rfl | hij
    · exact hij
    · exact absurd h (String.lt_irrefl _)
    · exact absurd (String.lt_trans h (hless j i hj hi hij)) (String.lt_irrefl _)
  · exact hless i j hi hj

/-- In an ascending list, a text has one place. -/
theorem eq_of_getElem_eq (hlist : list.toList.Pairwise (· < ·)) (hi : i < list.size)
    (hj : j < list.size) (h : list[i] = list[j]) : i = j := by
  have hij : ¬ i < j := fun hlt =>
    String.lt_irrefl _ (h ▸ (getElem_lt_iff hlist hi hj).mpr hlt)
  have hji : ¬ j < i := fun hlt =>
    String.lt_irrefl _ (h ▸ (getElem_lt_iff hlist hj hi).mpr hlt)
  omega

/-- Halving a part of an ascending list with `search` finds a text exactly at its place in
that part. -/
theorem search_eq_some (hlist : list.toList.Pairwise (· < ·)) {hhigh : high ≤ list.size} :
    search list text low high hhigh = some i ↔
    low ≤ i ∧ i < high ∧ list[i]? = some text := by
  fun_induction search list text low high hhigh with
  | case1 low high hhigh hlow middle hmiddle heq =>
    -- the text is in the middle, and nowhere else
    have hhere : list[middle]? = some text := by
      rw [Array.getElem?_eq_getElem hmiddle, heq]
    constructor
    · intro h
      obtain rfl : middle = i := Option.some.inj h
      exact ⟨by omega, by omega, hhere⟩
    · rintro ⟨-, -, hi⟩
      obtain ⟨hlt, htext⟩ := Array.getElem?_eq_some_iff.mp hi
      rw [eq_of_getElem_eq hlist hmiddle hlt (heq.trans htext.symm)]
  | case2 low high hhigh hlow middle hmiddle hne hless ih =>
    -- the text is less than the middle one, so it can only be in front of it
    rw [ih]
    constructor
    · rintro ⟨hlower, hupper, hi⟩
      exact ⟨by omega, hupper, hi⟩
    · rintro ⟨-, hupper, hi⟩
      obtain ⟨hlt, rfl⟩ := Array.getElem?_eq_some_iff.mp hi
      exact ⟨(getElem_lt_iff hlist hmiddle hlt).mp hless, hupper, hi⟩
  | case3 low high hhigh hlow middle hmiddle hne hless ih =>
    -- it is greater, so it can only be behind it
    rw [ih]
    constructor
    · rintro ⟨hlower, hupper, hi⟩
      exact ⟨hlower, by omega, hi⟩
    · rintro ⟨hlower, -, hi⟩
      obtain ⟨hlt, rfl⟩ := Array.getElem?_eq_some_iff.mp hi
      have hnot : ¬ middle < i :=
        fun h => hless ((getElem_lt_iff hlist hmiddle hlt).mpr h)
      have hdiffer : middle ≠ i := by
        rintro rfl
        exact hne rfl
      exact ⟨hlower, by omega, hi⟩
  | case4 low high hhigh hlow =>
    -- nothing is left
    refine iff_of_false nofun ?_
    rintro ⟨hlower, hupper, -⟩
    omega

/-! ## Parts of the list -/

/-- Whether an octet is a capital letter. -/
def isCapital (b : UInt8) : Bool :=
  65 ≤ b && b ≤ 90

/-- Whether octets are `least` to `most` capital letters. -/
def isWord (least most : Nat) (bs : List UInt8) : Bool :=
  least ≤ bs.length && bs.length ≤ most && bs.all isCapital

/-- Words of `least` to `most` capital letters in ascending order. All is told by their
octets, so that it is quick to check. -/
structure IsPart (list : Array String) (least most : Nat) : Prop where
  spelling : (list.toList.all fun w => isWord least most (octets w)) = true
  chain : list.toList.IsChain fun v w => octets v < octets w

instance (list : Array String) (least most : Nat) : Decidable (IsPart list least most) :=
  decidable_of_iff
    ((list.toList.all fun w => isWord least most (octets w)) = true ∧
      list.toList.IsChain fun v w => octets v < octets w)
    ⟨fun h => ⟨h.1, h.2⟩, fun h => ⟨h.spelling, h.chain⟩⟩

namespace IsPart

variable {least most : Nat}

/-- All texts of a part are words, by `isWord`. -/
theorem isWord_of_mem (h : IsPart list least most) (htext : text ∈ list) :
    (least ≤ (octets text).length ∧ (octets text).length ≤ most) ∧
      ∀ b ∈ octets text, isCapital b = true := by
  have hword := List.all_eq_true.mp h.spelling text htext.val
  unfold isWord at hword
  rw [Bool.and_eq_true, Bool.and_eq_true, decide_eq_true_eq, decide_eq_true_eq,
    List.all_eq_true] at hword
  exact hword

/-- The octets of the texts of a part are the codes of capital letters. -/
theorem codes (h : IsPart list least most) (htext : text ∈ list) :
    ∀ b ∈ octets text, 65 ≤ b.toNat ∧ b.toNat ≤ 90 := by
  intro b hb
  have hletter := (h.isWord_of_mem htext).2 b hb
  unfold isCapital at hletter
  rw [Bool.and_eq_true, decide_eq_true_eq, decide_eq_true_eq] at hletter
  exact hletter

theorem size (h : IsPart list least most) (htext : text ∈ list) :
    least ≤ text.utf8ByteSize ∧ text.utf8ByteSize ≤ most := by
  rw [← length_octets]
  exact (h.isWord_of_mem htext).1

/-- The characters of the texts of a part are their `asciiChars`. -/
theorem toList_eq (h : IsPart list least most) (htext : text ∈ list) :
    text.toList = asciiChars text :=
  toList_eq_asciiChars fun b hb => by
    have hcode := h.codes htext b hb
    omega

theorem isUpper (h : IsPart list least most) (htext : text ∈ list) :
    ∀ c ∈ text.toList, c.isUpper = true := by
  have hcodes : ∀ n < 91, 65 ≤ n → (Char.ofNat n).isUpper = true := by decide
  intro c hc
  rw [h.toList_eq htext] at hc
  obtain ⟨b, hb, rfl⟩ := List.mem_map.mp hc
  obtain ⟨hlow, hhigh⟩ := h.codes htext b hb
  exact hcodes b.toNat (Nat.lt_succ_of_le hhigh) hlow

/-- Words that follow each other in ascending order, as `IsPart` says, are all in
ascending order. -/
theorem ascending (h : IsPart list least most) : list.toList.Pairwise (· < ·) := by
  have htrans : Trans (fun v w => octets v < octets w) (fun v w => octets v < octets w)
      (fun v w => octets v < octets w) := ⟨fun h h' => List.lt_trans h h'⟩
  -- the octets are compared as the characters are
  refine h.chain.pairwise.imp_of_mem fun {v w} hv hw hless => ?_
  show v.toList < w.toList
  rw [h.toList_eq (Array.mem_def.mpr hv), h.toList_eq (Array.mem_def.mpr hw)]
  exact asciiChars_lt hless

/-- A text is found by `search` exactly at its place in the part. -/
theorem search_eq_some (h : IsPart list least most) :
    search list text 0 list.size (Nat.le_refl _) = some i ↔ list[i]? = some text := by
  rw [Mnemonic.search_eq_some h.ascending]
  constructor
  · rintro ⟨-, -, htext⟩
    exact htext
  · intro htext
    exact ⟨Nat.zero_le i, (Array.getElem?_eq_some_iff.mp htext).1, htext⟩

/-- A text is looked up in a part in vain if it is too short or too long for it. -/
theorem getElem?_ne_some (h : IsPart list least most)
    (hsize : text.utf8ByteSize < least ∨ most < text.utf8ByteSize) :
    list[i]? ≠ some text := by
  intro htext
  have hletters := h.size (Array.mem_of_getElem? htext)
  omega

end IsPart

/-! ## The word list -/

/-- Both parts of the word list are `IsPart`, and they have 2048 words together. -/
theorem isPart_words : IsPart shortWords 1 3 ∧ IsPart longWords 4 4 ∧
    shortWords.size + longWords.size = 2048 := by
  decide +kernel

theorem isPart_shortWords : IsPart shortWords 1 3 :=
  isPart_words.1

theorem isPart_longWords : IsPart longWords 4 4 :=
  isPart_words.2.1

theorem size_words : words.size = 2048 := by
  unfold words
  rw [Array.size_append]
  exact isPart_words.2.2

/-- The texts of `words` are made of capital letters. -/
theorem isUpper_of_mem_words (h : text ∈ words) :
    text.toList ≠ [] ∧ ∀ c ∈ text.toList, c.isUpper = true := by
  obtain ⟨hsize, hupper⟩ :
      0 < text.utf8ByteSize ∧ ∀ c ∈ text.toList, c.isUpper = true := by
    rcases Array.mem_append.mp h with h | h
    · exact ⟨(isPart_shortWords.size h).1, isPart_shortWords.isUpper h⟩
    · exact ⟨Nat.lt_of_lt_of_le (by decide) (isPart_longWords.size h).1,
        isPart_longWords.isUpper h⟩
  refine ⟨fun hnil => ?_, hupper⟩
  rw [String.toList_eq_nil_iff.mp hnil] at hsize
  exact absurd hsize (by decide)

/-- In `words`, those of up to three letters come first. -/
theorem getElem?_words : words[i]? = some text ↔
    shortWords[i]? = some text ∨
      ∃ k, longWords[k]? = some text ∧ shortWords.size + k = i := by
  unfold words
  rw [Array.getElem?_append]
  -- the place is in the first part, or so far behind it in the second
  by_cases hi : i < shortWords.size
  · rw [if_pos hi]
    refine (or_iff_left ?_).symm
    rintro ⟨k, -, hk⟩
    omega
  · rw [if_neg hi]
    have hnone : shortWords[i]? = none := Array.getElem?_eq_none (Nat.not_lt.mp hi)
    rw [hnone]
    constructor
    · intro h
      exact .inr ⟨_, h, Nat.add_sub_cancel' (Nat.not_lt.mp hi)⟩
    · rintro (h | ⟨k, hk, rfl⟩)
      · cases h
      · rw [Nat.add_sub_cancel_left]
        exact hk

/-- A text is found by `lookUp?` exactly at its place in `words`. -/
theorem lookUp?_eq_some : lookUp? text = some i ↔ words[i]? = some text := by
  rw [getElem?_words]
  -- a part whose words have other lengths does not have the text
  have hshort : text.utf8ByteSize < 1 ∨ 3 < text.utf8ByteSize →
      ¬ shortWords[i]? = some text :=
    isPart_shortWords.getElem?_ne_some
  have hlong : text.utf8ByteSize < 4 ∨ 4 < text.utf8ByteSize →
      ¬ ∃ k, longWords[k]? = some text ∧ shortWords.size + k = i := by
    rintro hsize ⟨k, hk, -⟩
    exact isPart_longWords.getElem?_ne_some hsize hk
  unfold lookUp?
  by_cases hempty : text.utf8ByteSize = 0
  · rw [if_pos hempty]
    exact iff_of_false nofun (not_or.mpr ⟨hshort (.inl (by omega)),
      hlong (.inl (by omega))⟩)
  rw [if_neg hempty]
  by_cases hthree : text.utf8ByteSize ≤ 3
  · rw [if_pos hthree, isPart_shortWords.search_eq_some]
    exact (or_iff_left (hlong (.inl (by omega)))).symm
  rw [if_neg hthree, or_iff_right (hshort (.inr (by omega)))]
  by_cases hfour : text.utf8ByteSize = 4
  · rw [if_pos hfour, Option.map_eq_some_iff]
    exact exists_congr fun k => and_congr_left' isPart_longWords.search_eq_some
  · rw [if_neg hfour]
    exact iff_of_false nofun (hlong (.inr (by omega)))

/-! ## Words as they are typed -/

variable {w : String}

/-- A word that is typed has the `index` of the word that it stands for. -/
theorem index_eq_ok : index w = .ok i ↔ words[i]? = some (standardizeWord w) := by
  rw [← lookUp?_eq_some]
  unfold index
  cases lookUp? (standardizeWord w) with
  | none => exact iff_of_false nofun nofun
  | some k => rw [Except.ok.injEq, Option.some.injEq]

/-- A word that stands for none of the `words` is refused by `index`. -/
theorem index_eq_error {e : CodecError} :
    index w = .error e ↔ standardizeWord w ∉ words ∧ e = .unknownWord w := by
  have hmem : standardizeWord w ∈ words ↔ ∃ i, lookUp? (standardizeWord w) = some i := by
    rw [Array.mem_iff_getElem?]
    exact exists_congr fun i => lookUp?_eq_some.symm
  rw [hmem]
  unfold index
  cases lookUp? (standardizeWord w) with
  | none =>
    rw [Except.error.injEq, eq_comm]
    exact ⟨fun h => ⟨nofun, h⟩, And.right⟩
  | some k =>
    refine iff_of_false nofun ?_
    rintro ⟨hnot, -⟩
    exact hnot ⟨k, rfl⟩

end Mnemonic

end XrpLedger.Text
