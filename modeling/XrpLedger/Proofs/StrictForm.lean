import XrpLedger.Bytes.Lemmas
import XrpLedger.Signature.Der

/-!
# The strict form of a pair is unique

A natural number has many contents in two's complement, all alike but for zeros in front,
and one of them is the shortest. The strict form asks for that one, gives each length in
one octet, and ends with the second number, so that there is no choice left in it.

- `Der.Denotes`, `Der.IsContent`: a content of a number, and the shortest one.
- `Der.isMinimal_iff`, `Der.isContent_iff`: the test of the reader and the content that is
  written.
- `Der.Spells`: the strict form of a pair of numbers.
- `Der.decode?_eq_some`: a pair is read exactly from its strict form.
- `Der.Spells.unique`, `Der.Spells.eq_of_eq`: one form for a pair, and one pair for a
  form.
- `Der.spells_encode`: what is written is the strict form, if the lengths fit.
-/

namespace XrpLedger.Der

variable {n r s r' s' : Nat} {bs cs rest : Bytes}

/-! ## Contents -/

/-- The octets are the number in two's complement. The top bit of a natural number is
clear. -/
structure Denotes (n : Nat) (bs : Bytes) : Prop where
  ne_nil : bs ≠ []
  value : Bytes.toNat bs = n
  clear : ∀ b ∈ bs.head?, b < 0x80

/-- The octets are the number in two's complement, and no fewer octets are. -/
structure IsContent (n : Nat) (bs : Bytes) : Prop where
  denotes : Denotes n bs
  shortest : ∀ cs, Denotes n cs → bs.length ≤ cs.length

/-- A number has one shortest content: of each length it has one content at most, so
`IsContent` holds of one. -/
theorem IsContent.unique (h : IsContent n bs) (h' : IsContent n cs) : bs = cs := by
  have hlength : bs.length = cs.length :=
    Nat.le_antisymm (h.shortest cs h'.denotes) (h'.shortest bs h.denotes)
  exact Bytes.toNat_inj hlength (h.denotes.value.trans h'.denotes.value.symm)

/-- The first octet counts as its place says. -/
theorem toNat_cons (b : UInt8) (bs : Bytes) :
    Bytes.toNat (b :: bs) = b.toNat * 256 ^ bs.length + Bytes.toNat bs := by
  have happend := Bytes.toNat_append [b] bs
  rw [List.singleton_append] at happend
  rw [happend]
  congr 2
  simp [Bytes.toNat]

/-- A clear top bit bounds the number that octets are a content of by `Denotes`. -/
theorem Denotes.lt (h : Denotes n bs) : n < 128 * 256 ^ (bs.length - 1) := by
  cases bs with
  | nil => exact absurd rfl h.ne_nil
  | cons b bs =>
    have hb : b.toNat < 128 := UInt8.lt_iff_toNat_lt.mp (h.clear b rfl)
    have hrest := Bytes.toNat_lt bs
    rw [← h.value, toNat_cons, List.length_cons, Nat.add_sub_cancel]
    calc b.toNat * 256 ^ bs.length + Bytes.toNat bs
        < b.toNat * 256 ^ bs.length + 256 ^ bs.length := Nat.add_lt_add_left hrest _
      _ = (b.toNat + 1) * 256 ^ bs.length := by rw [Nat.add_mul, Nat.one_mul]
      _ ≤ 128 * 256 ^ bs.length := Nat.mul_le_mul_right _ hb

/-- A number whose content needs its second octet is not below the bound of shorter
contents. -/
theorem le_toNat_of_second {b c : UInt8} (h : b ≠ 0 ∨ 0x80 ≤ c) (bs : Bytes) :
    128 * 256 ^ bs.length ≤ Bytes.toNat (b :: c :: bs) := by
  have hpos : 0 < 256 ^ bs.length := Nat.pow_pos (by decide)
  rw [toNat_cons, toNat_cons, List.length_cons, Nat.pow_succ]
  -- the first octet counts, or it is zero and the second one is large
  rcases h with h | h
  · have hb : 1 ≤ b.toNat := Nat.pos_of_ne_zero fun hzero => h (UInt8.toNat_inj.mp hzero)
    have hfirst := Nat.mul_le_mul_right (256 ^ bs.length * 256) hb
    omega
  · have hc : 128 ≤ c.toNat := UInt8.le_iff_toNat_le.mp h
    have hsecond := Nat.mul_le_mul_right (256 ^ bs.length) hc
    omega

/-- The first octet of a content is not idle, by `isMinimal`, exactly if the content is
the shortest one, by `IsContent`. -/
theorem isMinimal_iff : isMinimal bs = true ↔ IsContent (Bytes.toNat bs) bs := by
  constructor
  · intro h
    match bs, h with
    | [b], h =>
      have hb : b < 0x80 := of_decide_eq_true h
      refine ⟨⟨by simp, rfl, by simpa using hb⟩, fun cs hcs => ?_⟩
      exact List.length_pos_iff.mpr hcs.ne_nil
    | b :: c :: bs, h =>
      simp only [isMinimal, Bool.and_eq_true, Bool.or_eq_true, decide_eq_true_eq,
        bne_iff_ne] at h
      refine ⟨⟨by simp, rfl, by simpa using h.1⟩, fun cs hcs => ?_⟩
      -- a shorter content would bound the number from above
      by_contra hshort
      have hbound := Nat.lt_of_le_of_lt (le_toNat_of_second h.2 bs) hcs.lt
      have hpow : 256 ^ (cs.length - 1) ≤ 256 ^ bs.length := by
        refine Nat.pow_le_pow_right (by decide) ?_
        simp only [List.length_cons] at hshort
        omega
      exact absurd (Nat.mul_le_mul_left 128 hpow) (Nat.not_le.mpr hbound)
  · intro h
    match bs, h with
    | [], h => exact absurd rfl h.denotes.ne_nil
    | [b], h => exact decide_eq_true (h.denotes.clear b rfl)
    | b :: c :: bs, h =>
      have hb : b < 0x80 := h.denotes.clear b rfl
      simp only [isMinimal, Bool.and_eq_true, Bool.or_eq_true,
        decide_eq_true_eq, bne_iff_ne]
      refine ⟨hb, ?_⟩
      by_contra hidle
      obtain ⟨hzero, hc⟩ := not_or.mp hidle
      have hzero : b = 0 := not_not.mp hzero
      subst hzero
      -- the octets without the zero in front denote the number too
      have hvalue : Bytes.toNat (c :: bs) = Bytes.toNat (0 :: c :: bs) := by
        rw [toNat_cons 0]
        simp
      have hfewer := h.shortest (c :: bs) ⟨by simp, hvalue, by simpa using hc⟩
      simp at hfewer

/-! ## The content that is written -/

theorem octets_zero (fuel : Nat) : octets fuel 0 = [] := by
  cases fuel with
  | zero => rfl
  | succ fuel => rw [octets, if_pos rfl]

/-- The number of the `octets` of a number is the number. -/
theorem toNat_octets (fuel n : Nat) (hn : n ≤ fuel) :
    Bytes.toNat (octets fuel n) = n := by
  -- on the fuel: the last octet is the rest, and the others are the quotient
  induction fuel generalizing n with
  | zero =>
    obtain rfl : n = 0 := Nat.le_zero.mp hn
    rfl
  | succ fuel ih =>
    by_cases hzero : n = 0
    · rw [hzero, octets_zero]
      rfl
    · rw [octets, if_neg hzero, Bytes.toNat_concat, ih (n / 256) (by omega),
        UInt8.toNat_ofNat']
      omega

/-- The `octets` of a number do not start with zero. -/
theorem head?_octets (fuel n : Nat) (hn : n ≤ fuel) : (octets fuel n).head? ≠ some 0 := by
  induction fuel generalizing n with
  | zero => nofun
  | succ fuel ih =>
    by_cases hzero : n = 0
    · rw [hzero, octets_zero]
      nofun
    · rw [octets, if_neg hzero]
      by_cases hsmall : n / 256 = 0
      · -- the only octet is the number
        rw [hsmall, octets_zero, List.nil_append, List.head?_cons]
        intro hlast
        have hvalue := congrArg UInt8.toNat (Option.some.inj hlast)
        rw [UInt8.toNat_ofNat'] at hvalue
        have : n % 2 ^ 8 = 0 := hvalue
        omega
      · have hne : octets fuel (n / 256) ≠ [] := by
          intro hnil
          have hvalue := toNat_octets fuel (n / 256) (by omega)
          rw [hnil] at hvalue
          exact hsmall hvalue.symm
        rw [List.head?_append_of_ne_nil _ hne]
        exact ih (n / 256) (by omega)

/-- The `content` that is written is one of the number. -/
theorem toNat_content (n : Nat) : Bytes.toNat (content n) = n := by
  have hvalue := toNat_octets n n (Nat.le_refl n)
  unfold content
  split
  · next hnil =>
    rw [hnil] at hvalue
    exact hvalue
  · next b bs hcons =>
    rw [hcons] at hvalue
    split
    · exact hvalue
    · rw [toNat_cons 0]
      simpa using hvalue

/-- The `content` that is written has no idle octet. -/
theorem isMinimal_content (n : Nat) : isMinimal (content n) = true := by
  have hhead := head?_octets n n (Nat.le_refl n)
  unfold content
  split
  · rfl
  · next b bs hcons =>
    rw [hcons] at hhead
    have hb : b ≠ 0 := fun hzero => hhead (congrArg some hzero)
    split
    · next hclear =>
      cases bs with
      | nil => exact decide_eq_true hclear
      | cons c bs => simp [isMinimal, hclear, hb]
    · next hset => simp [isMinimal, UInt8.not_lt.mp hset]

/-- The shortest content of a number, by `IsContent`, is the `content` that is written. -/
theorem isContent_iff : IsContent n bs ↔ bs = content n := by
  have hwritten : IsContent n (content n) := by
    have hminimal := isMinimal_iff.mp (isMinimal_content n)
    rwa [toNat_content] at hminimal
  constructor
  · intro h
    exact h.unique hwritten
  · rintro rfl
    exact hwritten

/-- A number of 32 octets has a content of 33 octets at most, of which the first may be
idle. -/
theorem IsContent.length_le (h : IsContent n bs) (hn : n < 2 ^ 256) : bs.length ≤ 33 := by
  have hvalue : Bytes.toNat (0 :: Bytes.ofNat 32 n) = n := by
    rw [toNat_cons 0, Bytes.toNat_ofNat, Nat.mod_eq_of_lt (by simpa using hn)]
    simp
  -- the octets of the number behind a zero are a content of it
  have hlong : Denotes n (0 :: Bytes.ofNat 32 n) := ⟨by simp, hvalue, by simp⟩
  simpa using h.shortest _ hlong

/-! ## Elements -/

/-- A tag, the length of a content in one octet, and the content. -/
structure IsElement (tag : UInt8) (body bs : Bytes) : Prop where
  length_lt : body.length < 128
  eq : bs = tag :: UInt8.ofNat body.length :: body

/-- The octets are the strict form of a pair: a sequence of two integers. -/
def Spells (r s : Nat) (bs : Bytes) : Prop :=
  ∃ a b u v, IsContent r a ∧ IsContent s b ∧ IsElement integerTag a u ∧
    IsElement integerTag b v ∧
    IsElement sequenceTag (u ++ v) bs

theorem toNat_ofNat_length {body : Bytes} (h : body.length < 128) :
    (UInt8.ofNat body.length).toNat = body.length := by
  rw [UInt8.toNat_ofNat']
  omega

theorem ofNat_length_lt {body : Bytes} (h : body.length < 128) :
    UInt8.ofNat body.length < 0x80 := by
  rw [UInt8.lt_iff_toNat_lt, toNat_ofNat_length h]
  exact h

/-- The octet of a length is the length of the octets that it counts in an element. -/
theorem isElement_of_length {tag length : UInt8} {body : Bytes} (hlength : length < 0x80)
    (hbody : body.length = length.toNat) :
    IsElement tag body (tag :: length :: body) := by
  refine ⟨?_, ?_⟩
  · rw [hbody]
    exact UInt8.lt_iff_toNat_lt.mp hlength
  · rw [hbody, UInt8.ofNat_toNat]

/-- An integer is read by `readInteger?` exactly if the element of its shortest content is
in front. -/
theorem readInteger?_eq_some :
    readInteger? bs = some (n, rest) ↔
      ∃ a u, IsContent n a ∧ IsElement integerTag a u ∧ bs = u ++ rest := by
  constructor
  · intro h
    match bs, h with
    | tag :: length :: more, h =>
      simp only [readInteger?] at h
      split at h
      · next hform =>
        obtain ⟨rfl, hlength, hbody, hminimal⟩ := hform
        cases h
        refine ⟨more.take length.toNat, _, isMinimal_iff.mp hminimal,
          isElement_of_length hlength hbody, ?_⟩
        rw [List.cons_append, List.cons_append, List.take_append_drop]
      · cases h
  · rintro ⟨a, u, ha, ⟨hlength, rfl⟩, rfl⟩
    have hminimal : isMinimal a = true := isMinimal_iff.mpr (ha.denotes.value ▸ ha)
    simp only [List.cons_append, readInteger?, toNat_ofNat_length hlength, List.take_left,
      List.drop_left]
    rw [if_pos ⟨trivial, ofNat_length_lt hlength, trivial, hminimal⟩, ha.denotes.value]

/-- A pair is read by `decode?` exactly from its strict form, which `Spells` it. -/
theorem decode?_eq_some : decode? bs = some (r, s) ↔ Spells r s bs := by
  constructor
  · intro h
    match bs, h with
    | tag :: length :: body, h =>
      simp only [decode?] at h
      split at h
      · next hform =>
        obtain ⟨rfl, hlength, hbody⟩ := hform
        split at h
        · cases h
        · next r' more hfirst =>
          split at h
          · next s' hsecond =>
            cases h
            obtain ⟨a, u, ha, hu, rfl⟩ := readInteger?_eq_some.mp hfirst
            obtain ⟨b, v, hb, hv, rfl⟩ := readInteger?_eq_some.mp hsecond
            rw [List.append_nil] at hbody ⊢
            exact ⟨a, b, u, v, ha, hb, hu, hv, isElement_of_length hlength hbody⟩
          · cases h
      · cases h
  · rintro ⟨a, b, u, v, ha, hb, hu, hv, ⟨hlength, rfl⟩⟩
    have hfirst : readInteger? (u ++ v) = some (r, v) :=
      readInteger?_eq_some.mpr ⟨a, u, ha, hu, rfl⟩
    have hsecond : readInteger? v = some (s, []) :=
      readInteger?_eq_some.mpr ⟨b, v, hb, hv, (List.append_nil v).symm⟩
    rw [decode?, if_pos ⟨rfl, ofNat_length_lt hlength, (toNat_ofNat_length hlength).symm⟩,
      hfirst]
    simp only
    rw [hsecond]

/-- A pair has one strict form that `Spells` it. -/
theorem Spells.unique (h : Spells r s bs) (h' : Spells r s cs) : bs = cs := by
  obtain ⟨a, b, u, v, ha, hb, hu, hv, hbs⟩ := h
  obtain ⟨a', b', u', v', ha', hb', hu', hv', hcs⟩ := h'
  obtain rfl := ha.unique ha'
  obtain rfl := hb.unique hb'
  obtain rfl := hu.eq.trans hu'.eq.symm
  obtain rfl := hv.eq.trans hv'.eq.symm
  exact hbs.eq.trans hcs.eq.symm

/-- A form `Spells` one pair. -/
theorem Spells.eq_of_eq (h : Spells r s bs) (h' : Spells r' s' bs) : r = r' ∧ s = s' := by
  have hread := (decode?_eq_some.mpr h).symm.trans (decode?_eq_some.mpr h')
  exact Prod.mk.inj (Option.some.inj hread)

/-- Numbers of 32 octets are written by `encode` in strict form. -/
theorem spells_encode (hr : r < 2 ^ 256) (hs : s < 2 ^ 256) :
    Spells r s (encode r s) := by
  have ha : IsContent r (content r) := isContent_iff.mpr rfl
  have hb : IsContent s (content s) := isContent_iff.mpr rfl
  have hlength := ha.length_le hr
  have hlength' := hb.length_le hs
  refine ⟨content r, content s, integer r, integer s, ha, hb, ⟨by omega, rfl⟩,
    ⟨by omega, rfl⟩, ?_, rfl⟩
  rw [List.length_append, integer, integer]
  -- both integers together have fewer than 128 octets
  simp only [List.length_cons]
  omega

end XrpLedger.Der
