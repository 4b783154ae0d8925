import XrpLedger.AccountId

/-!
# Base-58 text is read back

A change of base keeps the number and the count of zeros in front of it, so it is undone
by the change back.

- `Text.Base58.rebase_self`, `Text.Base58.rebase_rebase`: no change of base, and the
  change and back.
- `Text.Base58.decode_eq_ok`: a text is read as the octets that it is the text of.
- `Text.Base58Check.decode_encode`, `AccountId.ofAddress_toAddress`: guarded texts and
  addresses.
-/

namespace XrpLedger

namespace Text

/-! ## Numerals -/

namespace Positional

/-- Zeros in front do not change the `value` of digits. -/
theorem value_zeros_append (base k : Nat) (ds : List Nat) :
    value base (List.replicate k 0 ++ ds) = value base ds := by
  have hzeros : value base (List.replicate k 0) = 0 := by
    induction k with
    | zero => rfl
    | succ k ih => rw [List.replicate_succ', value_concat, ih, Nat.zero_mul]
  rw [value_append, hzeros, value]

/-- The `digits` of a number do not start with zero. -/
theorem head?_digits {base : Nat} (hbase : 2 ≤ base) (n : Nat) :
    (digits base n).head? ≠ some 0 := by
  -- on the number: the digits in front of the last are those of the quotient
  induction n using Nat.strongRecOn with
  | ind n ih =>
    rcases Nat.eq_zero_or_pos n with rfl | hn
    · simp
    · have hless : n / base < n := Nat.div_lt_self hn hbase
      have hquotient := ih (n / base) hless
      rw [digits_of_pos hbase hn]
      cases hdigits : digits base (n / base) with
      | cons d ds =>
        rw [hdigits] at hquotient
        exact hquotient
      | nil =>
        -- the number is its only digit
        have hzero : n / base = 0 := by
          have hvalue := value_digits hbase (n / base)
          rw [hdigits] at hvalue
          exact hvalue.symm
        have hsmall : n < base := (Nat.div_eq_zero_iff_lt (by omega)).mp hzero
        simp only [List.nil_append, List.head?_cons, Nat.mod_eq_of_lt hsmall]
        intro heq
        cases heq
        exact Nat.lt_irrefl _ hn

end Positional

namespace Base58

/-! ## Change of base -/

/-- The zeros put in front are the `leadingZeros`. -/
theorem leadingZeros_zeros_append {ds : List Nat} (hds : ds.head? ≠ some 0) (k : Nat) :
    leadingZeros (List.replicate k 0 ++ ds) = k := by
  unfold leadingZeros
  induction k with
  | zero =>
    cases ds with
    | nil => rfl
    | cons d ds =>
      have hd : d ≠ 0 := by simpa using hds
      simp [hd]
  | succ k ih =>
    rw [List.replicate_succ, List.cons_append, List.takeWhile_cons_of_pos (by simp),
      List.length_cons, ih]

/-- The digits behind the `leadingZeros`. -/
theorem exists_zeros_append (ds : List Nat) :
    ∃ rest, ds = List.replicate (leadingZeros ds) 0 ++ rest ∧ rest.head? ≠ some 0 := by
  induction ds with
  | nil => exact ⟨[], rfl, by simp⟩
  | cons d ds ih =>
    -- a digit other than zero ends the zeros
    by_cases hd : d = 0
    · subst hd
      obtain ⟨rest, hrest, hhead⟩ := ih
      refine ⟨rest, ?_, hhead⟩
      have hcount : leadingZeros (0 :: ds) = leadingZeros ds + 1 := by simp [leadingZeros]
      rw [hcount, List.replicate_succ, List.cons_append, ← hrest]
    · refine ⟨d :: ds, ?_, by simpa using hd⟩
      have hcount : leadingZeros (d :: ds) = 0 := by simp [leadingZeros, hd]
      rw [hcount, List.replicate_zero, List.nil_append]

/-- What `rebase` makes are digits in the base. -/
theorem rebase_lt {source target : Nat} (htarget : 2 ≤ target) (ds : List Nat) :
    ∀ d ∈ rebase source target ds, d < target := by
  intro d hd
  rcases List.mem_append.mp hd with hd | hd
  · rw [List.eq_of_mem_replicate hd]
    exact Nat.zero_lt_of_lt htarget
  · exact Positional.digits_lt htarget _ d hd

/-- The `leadingZeros` are kept by `rebase`. -/
theorem leadingZeros_rebase {target : Nat} (htarget : 2 ≤ target) (source : Nat)
    (ds : List Nat) :
    leadingZeros (rebase source target ds) = leadingZeros ds :=
  leadingZeros_zeros_append (Positional.head?_digits htarget _) _

/-- The `value` is kept by `rebase`. -/
theorem value_rebase {target : Nat} (htarget : 2 ≤ target) (source : Nat)
    (ds : List Nat) :
    Positional.value target (rebase source target ds) = Positional.value source ds := by
  rw [rebase, Positional.value_zeros_append, Positional.value_digits htarget]

/-- The zeros in front and the number make up a digit list, so `rebase` to the same base
changes nothing. -/
theorem rebase_self {base : Nat} (hbase : 2 ≤ base) {ds : List Nat}
    (hds : ∀ d ∈ ds, d < base) :
    rebase base base ds = ds := by
  obtain ⟨rest, hrest, hhead⟩ := exists_zeros_append ds
  -- the digits behind the zeros have the value of all
  have hvalue := congrArg (Positional.value base) hrest
  rw [Positional.value_zeros_append] at hvalue
  have hdigits : ∀ d ∈ rest, d < base := by
    intro d hd
    refine hds d ?_
    rw [hrest]
    exact List.mem_append_right _ hd
  rw [rebase, hvalue, Positional.digits_value hbase rest hdigits hhead]
  exact hrest.symm

/-- The change back undoes a change of base by `rebase`. -/
theorem rebase_rebase {source target : Nat} (hsource : 2 ≤ source) (htarget : 2 ≤ target)
    {ds : List Nat} (hds : ∀ d ∈ ds, d < source) :
    rebase target source (rebase source target ds) = ds := by
  rw [rebase, leadingZeros_rebase htarget, value_rebase htarget]
  exact rebase_self hsource hds

/-! ## Characters -/

theorem idxOf?_digitChar : ∀ d < 58, alphabet.idxOf? (digitChar d) = some d := by
  decide +kernel

theorem digitChar_lt : ∀ d < 58, (digitChar d).toNat < 128 := by
  decide +kernel

/-- A character that is found in the `alphabet` is the `digitChar` of its place. -/
theorem digitChar_of_idxOf? {c : Char} {d : Nat} (h : alphabet.idxOf? c = some d) :
    d < 58 ∧ digitChar d = c := by
  obtain ⟨hd, hc, -⟩ := List.findIdx?_eq_some_iff_getElem.mp h
  refine ⟨hd, ?_⟩
  rw [digitChar, List.getD_eq_getElem?_getD, List.getElem?_eq_getElem hd,
    Option.getD_some]
  exact eq_of_beq hc

/-- The characters that `digitValues` reads are those of the digits. -/
theorem digitValues_eq_ok {position : Nat} {cs : List Char} {ds : List Nat} :
    digitValues position cs = .ok ds ↔ cs = ds.map digitChar ∧ ∀ d ∈ ds, d < 58 := by
  -- on the characters: each is found at the place of its digit, or refused
  induction cs generalizing position ds with
  | nil =>
    rw [digitValues, Except.ok.injEq]
    constructor
    · rintro rfl
      exact ⟨rfl, by simp⟩
    · rintro ⟨hds, -⟩
      exact (List.map_eq_nil_iff.mp hds.symm).symm
  | cons c cs ih =>
    rw [digitValues]
    constructor
    · intro h
      split at h
      · cases h
      · split at h
        · cases h
        · next d hd =>
          split at h
          · cases h
          · next rest hrest =>
            cases h
            obtain ⟨hlt, rfl⟩ := digitChar_of_idxOf? hd
            obtain ⟨rfl, hlts⟩ := ih.mp hrest
            exact ⟨rfl, List.forall_mem_cons.mpr ⟨hlt, hlts⟩⟩
    · rintro ⟨hcs, hds⟩
      cases ds with
      | nil => cases hcs
      | cons d ds =>
        obtain ⟨rfl, rfl⟩ := List.cons.inj hcs
        obtain ⟨hd, hrest⟩ := List.forall_mem_cons.mp hds
        rw [if_neg (Nat.not_le.mpr (digitChar_lt d hd)), idxOf?_digitChar d hd]
        simp only
        rw [ih.mpr ⟨rfl, hrest⟩]

/-! ## Texts -/

theorem map_toNat_map_ofNat {ds : List Nat} (hds : ∀ d ∈ ds, d < 256) :
    (ds.map UInt8.ofNat).map UInt8.toNat = ds := by
  rw [List.map_map]
  refine (List.map_congr_left fun d hd => ?_).trans (List.map_id ds)
  exact UInt8.toNat_ofNat_of_lt' (hds d hd)

theorem map_ofNat_map_toNat (bs : Bytes) : (bs.map UInt8.toNat).map UInt8.ofNat = bs := by
  rw [List.map_map]
  refine (List.map_congr_left fun b _ => ?_).trans (List.map_id bs)
  exact UInt8.ofNat_toNat

/-- A text is read by `decode` as octets exactly if it is their text `encode`. -/
theorem decode_eq_ok {text : String} {bs : Bytes} :
    decode text = .ok bs ↔ text = encode bs := by
  constructor
  · intro h
    unfold decode at h
    split at h
    · cases h
    · next ds hds =>
      cases h
      obtain ⟨hcs, hlt⟩ := digitValues_eq_ok.mp hds
      rw [encode, map_toNat_map_ofNat (rebase_lt (by decide) ds),
        rebase_rebase (by decide) (by decide) hlt, ← hcs, String.ofList_toList]
  · rintro rfl
    have hlt : ∀ d ∈ bs.map UInt8.toNat, d < 256 := by
      intro d hd
      obtain ⟨b, -, rfl⟩ := List.mem_map.mp hd
      exact b.toNat_lt
    have hds : digitValues 0 ((rebase 256 58 (bs.map UInt8.toNat)).map digitChar) =
        .ok (rebase 256 58 (bs.map UInt8.toNat)) :=
      digitValues_eq_ok.mpr ⟨rfl, rebase_lt (by decide) _⟩
    rw [decode, encode, String.toList_ofList, hds]
    simp only
    rw [rebase_rebase (by decide) (by decide) hlt, map_ofNat_map_toNat]

end Base58

/-! ## Guarded texts -/

namespace Base58Check

/-- Data are read by `decode` from their text `encode`, with the checksum behind. -/
theorem decode_encode (data : Bytes) : decode (encode data) = .ok data := by
  have hoctets : Base58.decode (encode data) = .ok (data ++ Hash.checksum data) :=
    Base58.decode_eq_ok.mpr rfl
  have hlength : (data ++ Hash.checksum data).length = data.length + checksumLength := by
    rw [List.length_append, Hash.length_checksum]
    rfl
  rw [decode, hoctets]
  simp only
  -- what is in front of the last four octets is the data
  rw [hlength, if_neg (Nat.not_lt.mpr (Nat.le_add_left _ _)),
    Nat.add_sub_cancel, List.take_left, List.drop_left, if_pos rfl]

/-- A payload is read by `decodeVersioned` behind the version octets that
`encodeVersioned` wrote it behind. -/
theorem decodeVersioned_encodeVersioned (version payload : Bytes) :
    decodeVersioned (encodeVersioned version payload) version payload.length =
    .ok payload := by
  rw [decodeVersioned, encodeVersioned, decode_encode]
  simp only
  rw [List.take_left, if_pos rfl, List.drop_left, if_pos rfl]

end Base58Check

end Text

/-- An account is found by `ofAddress` from its address `toAddress`. -/
theorem AccountId.ofAddress_toAddress (id : AccountId) :
    ofAddress id.toAddress = .ok id := by
  have hpayload : Text.Base58Check.decodeVersioned id.toAddress version 20 =
      .ok id.toBytes := by
    have hlength : id.toBytes.length = 20 := id.raw.length_eq
    rw [← hlength]
    exact Text.Base58Check.decodeVersioned_encodeVersioned version id.toBytes
  have hraw : FixedBytes.ofBytes 20 id.toBytes = .ok id.raw :=
    FixedBytes.ofBytes_eq_ok.mpr rfl
  rw [ofAddress, hpayload]
  simp only
  rw [ofBytes, hraw]

end XrpLedger
