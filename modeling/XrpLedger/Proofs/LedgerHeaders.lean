import XrpLedger.Bytes.Lemmas
import XrpLedger.Ledger.Header

/-!
# The layout of ledger headers

The fields of a header are written at offsets and read from offsets. Both go right because
the fields stand one behind the other, without a gap and without an overlap, from the
first octet to the last.

- `LedgerHeader.Tiles`: parts that stand one behind the other.
- `LedgerHeader.placeAll_behind`, `LedgerHeader.flatMap_of_slices`: such parts are all
  that is written, and all that there is to read.
- `LedgerHeader.tiles_parts`: the fields of a header are such parts.
- `LedgerHeader.decode_bijective`: headers and strings of 118 octets correspond to each
  other.
-/

namespace XrpLedger.LedgerHeader

variable {bs front part rest : Bytes} {parts : List (Nat × Bytes)}
    {offset start stop : Nat}

/-! ## Parts side by side -/

/-- The parts stand one behind the other, from the offset `start` up to `stop`. -/
def Tiles : (start : Nat) → List (Nat × Bytes) → (stop : Nat) → Prop
  | start, [], stop => start = stop
  | start, (offset, part) :: rest, stop =>
    offset = start ∧ Tiles (start + part.length) rest stop

theorem Tiles.length (h : Tiles start parts stop) :
    start + (parts.flatMap Prod.snd).length = stop := by
  induction parts generalizing start with
  | nil => exact h
  | cons first others ih =>
    obtain ⟨offset, part⟩ := first
    have hothers := ih h.2
    rw [List.flatMap_cons, List.length_append, ← Nat.add_assoc]
    exact hothers

/-- A part that `place` puts right behind what has been written continues it. -/
theorem place_behind (front rest part : Bytes) :
    place (front ++ rest) front.length part = front ++ part ++ rest.drop part.length := by
  rw [place, List.take_left, List.drop_append, List.append_assoc]
  simp

/-- Parts that are `Tiles` are written by `placeAll` as they follow each other. -/
theorem placeAll_behind (front rest : Bytes) (h : Tiles front.length parts stop) :
    placeAll (front ++ rest) parts =
      front ++ parts.flatMap Prod.snd ++ rest.drop (parts.flatMap Prod.snd).length := by
  -- what has been written is the front, which the next part continues
  induction parts generalizing front rest with
  | nil => simp [placeAll]
  | cons first others ih =>
    obtain ⟨offset, part⟩ := first
    obtain ⟨rfl, hothers⟩ := h
    rw [← List.length_append] at hothers
    calc placeAll (front ++ rest) ((front.length, part) :: others)
        = placeAll (place (front ++ rest) front.length part) others := rfl
      _ = placeAll (front ++ part ++ rest.drop part.length) others := by rw [place_behind]
      _ = front ++ part ++ others.flatMap Prod.snd ++
          (rest.drop part.length).drop (others.flatMap Prod.snd).length := ih _ _ hothers
      _ = _ := by
        rw [List.drop_drop, List.flatMap_cons, List.length_append,
          List.append_assoc front]

/-- Each of such parts is the `slice` at its offset. -/
theorem slice_of_mem (front : Bytes) (h : Tiles front.length parts stop)
    (hmem : (offset, part) ∈ parts) :
    slice (front ++ parts.flatMap Prod.snd) offset part.length = part := by
  induction parts generalizing front with
  | nil => cases hmem
  | cons first others ih =>
    obtain ⟨i, p⟩ := first
    obtain ⟨rfl, hothers⟩ := h
    rw [List.flatMap_cons]
    -- it is the next part, or it is behind that
    rcases List.mem_cons.mp hmem with heq | hmem
    · cases heq
      rw [slice, List.drop_left, List.take_left]
    · rw [← List.length_append] at hothers
      rw [← List.append_assoc]
      exact ih _ hothers hmem

/-- A string that has all parts as the `slice` at their offsets is made of them. -/
theorem flatMap_of_slices (h : Tiles start parts stop) (hstop : bs.length = stop)
    (hslices : ∀ p ∈ parts, slice bs p.1 p.2.length = p.2) :
    parts.flatMap Prod.snd = bs.drop start := by
  -- what is left of the string begins with the next part
  induction parts generalizing start with
  | nil =>
    have hend : bs.length ≤ start := Nat.le_of_eq (hstop.trans h.symm)
    rw [List.flatMap_nil, List.drop_eq_nil_of_le hend]
  | cons first others ih =>
    obtain ⟨offset, part⟩ := first
    obtain ⟨rfl, hothers⟩ := h
    obtain ⟨hpart, hslices⟩ := List.forall_mem_cons.mp hslices
    have hfirst : (bs.drop offset).take part.length = part := hpart
    show part ++ others.flatMap Prod.snd = bs.drop offset
    calc part ++ others.flatMap Prod.snd
        = (bs.drop offset).take part.length ++ (bs.drop offset).drop part.length := by
          rw [hfirst, ih hothers hslices, List.drop_drop]
      _ = bs.drop offset := List.take_append_drop _ _

/-! ## Writing -/

variable (h : LedgerHeader)

/-- The fields `parts` of a header are `Tiles` of all 118 octets, from the first to the
last. -/
theorem tiles_parts : Tiles 0 h.parts size := by
  simp only [parts, Tiles, Bytes.length_ofNat, h.parentHash.length_eq,
    h.transactionHash.length_eq, h.accountHash.length_eq]
  decide

/-- The fields are written by `toBytes` as they follow each other, and no zero of the
initial buffer is left. -/
theorem toBytes_eq : h.toBytes = h.parts.flatMap Prod.snd := by
  have hlength := h.tiles_parts.length
  -- the parts cover the buffer of zeros
  have hall : (List.replicate size (0 : UInt8)).drop (h.parts.flatMap Prod.snd).length =
      [] := by
    refine List.drop_eq_nil_of_le ?_
    rw [List.length_replicate]
    omega
  have hwritten := placeAll_behind [] (List.replicate size 0) h.tiles_parts
  rwa [List.nil_append, List.nil_append, hall, List.append_nil] at hwritten

theorem length_toBytes : h.toBytes.length = size := by
  have hlength := h.tiles_parts.length
  rw [toBytes_eq]
  omega

variable {h}

/-- Each field is found by `slice` where `toBytes` wrote it. -/
theorem slice_toBytes (hmem : (offset, part) ∈ h.parts) :
    slice h.toBytes offset part.length = part := by
  have hfound := slice_of_mem [] h.tiles_parts hmem
  rwa [List.nil_append, ← toBytes_eq] at hfound

/-- A string of 118 octets that has the fields of a header at their offsets is what
`toBytes` makes of it. -/
theorem toBytes_of_slices (hlength : bs.length = size)
    (hslices : ∀ p ∈ h.parts, slice bs p.1 p.2.length = p.2) : h.toBytes = bs := by
  rw [toBytes_eq, flatMap_of_slices h.tiles_parts hlength hslices]
  rfl

/-! ## Reading -/

theorem length_slice {count : Nat} (hfits : offset + count ≤ bs.length) :
    (slice bs offset count).length = count := by
  rw [slice, List.length_take, List.length_drop]
  omega

theorem numberAt_lt {width : Nat} (hfits : offset + width ≤ bs.length) :
    numberAt bs offset width < 256 ^ width := by
  have hlt := Bytes.toNat_lt (slice bs offset width)
  rwa [length_slice hfits] at hlt

/-- The number `numberAt` an offset is written as the octets that it was read from. -/
theorem ofNat_numberAt {width : Nat} (hfits : offset + width ≤ bs.length) :
    Bytes.ofNat width (numberAt bs offset width) = slice bs offset width := by
  have hsame := Bytes.ofNat_toNat (slice bs offset width)
  rwa [length_slice hfits] at hsame

/-- A number that was written at an offset is read there by `numberAt`. -/
theorem numberAt_toBytes {width n : Nat} (hn : n < 256 ^ width)
    (hmem : (offset, Bytes.ofNat width n) ∈ h.parts) :
    numberAt h.toBytes offset width = n := by
  have hslice := slice_toBytes hmem
  rw [Bytes.length_ofNat] at hslice
  rw [numberAt, hslice, Bytes.toNat_ofNat, Nat.mod_eq_of_lt hn]

theorem hashAt_eq_ok {a : Hash256} :
    hashAt bs offset = .ok a ↔ slice bs offset 32 = a.toList := by
  rw [hashAt, FixedBytes.ofBytes_eq_ok, eq_comm]

theorem exists_hashAt (offset : Nat) (hfits : offset + 32 ≤ bs.length) :
    ∃ a, hashAt bs offset = .ok a :=
  ⟨⟨slice bs offset 32, length_slice hfits⟩, hashAt_eq_ok.mpr rfl⟩

theorem hashAt_toBytes {a : Hash256} (hmem : (offset, a.toList) ∈ h.parts) :
    hashAt h.toBytes offset = .ok a := by
  have hslice := slice_toBytes hmem
  rw [a.length_eq] at hslice
  exact hashAt_eq_ok.mpr hslice

/-- A header is read by `decode` from its octets `toBytes`. -/
theorem decode_toBytes (h : LedgerHeader) : decode h.toBytes = .ok h := by
  -- each field is one of the parts, so it is read where it was written
  have hparent : hashAt h.toBytes parentHashOffset = .ok h.parentHash :=
    hashAt_toBytes (by simp [parts])
  have htransaction : hashAt h.toBytes transactionHashOffset = .ok h.transactionHash :=
    hashAt_toBytes (by simp [parts])
  have haccount : hashAt h.toBytes accountHashOffset = .ok h.accountHash :=
    hashAt_toBytes (by simp [parts])
  have hsequence : numberAt h.toBytes sequenceOffset 4 = h.sequence.toNat :=
    numberAt_toBytes h.sequence.toNat_lt (by simp [parts])
  have hcoins : numberAt h.toBytes totalCoinsOffset 8 = h.totalCoins.toNat :=
    numberAt_toBytes h.totalCoins.toNat_lt (by simp [parts])
  have hparentClose : numberAt h.toBytes parentCloseTimeOffset 4 =
      h.parentCloseTime.toNat :=
    numberAt_toBytes h.parentCloseTime.toNat_lt (by simp [parts])
  have hclose : numberAt h.toBytes closeTimeOffset 4 = h.closeTime.toNat :=
    numberAt_toBytes h.closeTime.toNat_lt (by simp [parts])
  have hresolution :
      numberAt h.toBytes closeTimeResolutionOffset 1 = h.closeTimeResolution.toNat :=
    numberAt_toBytes h.closeTimeResolution.toNat_lt (by simp [parts])
  have hflags : numberAt h.toBytes closeFlagsOffset 1 = h.closeFlags.toNat :=
    numberAt_toBytes h.closeFlags.toNat_lt (by simp [parts])
  rw [decode, if_pos h.length_toBytes, hparent, htransaction, haccount]
  simp only [hsequence, hcoins, hparentClose, hclose, hresolution, hflags,
    UInt32.ofNat_toNat, UInt64.ofNat_toNat, UInt8.ofNat_toNat]

/-- What `decode` makes of 118 octets is a header that has them as its fields `parts`. -/
theorem exists_slices (hlength : bs.length = size) :
    ∃ h, decode bs = .ok h ∧ ∀ p ∈ h.parts, slice bs p.1 p.2.length = p.2 := by
  have hfits : ∀ {offset count : Nat}, offset + count ≤ 118 →
      offset + count ≤ bs.length :=
    fun hle => hle.trans (Nat.le_of_eq hlength.symm)
  -- a number that was read is written as the slice that it was read from
  have hnumber : ∀ {offset width n : Nat}, offset + width ≤ 118 →
      n = numberAt bs offset width →
        slice bs offset (Bytes.ofNat width n).length = Bytes.ofNat width n := by
    rintro offset width n hle rfl
    rw [Bytes.length_ofNat, ofNat_numberAt (hfits hle)]
  have hhash : ∀ {offset : Nat} {a : Hash256}, hashAt bs offset = .ok a →
      slice bs offset a.toList.length = a.toList := by
    intro offset a ha
    rw [a.length_eq]
    exact hashAt_eq_ok.mp ha
  obtain ⟨parent, hparent⟩ := exists_hashAt parentHashOffset (hfits (by decide))
  obtain ⟨transaction, htransaction⟩ :=
    exists_hashAt transactionHashOffset (hfits (by decide))
  obtain ⟨account, haccount⟩ := exists_hashAt accountHashOffset (hfits (by decide))
  rw [decode, if_pos hlength, hparent, htransaction, haccount]
  refine ⟨_, rfl, ?_⟩
  simp only [parts, List.forall_mem_cons, List.not_mem_nil, false_implies,
    implies_true, and_true]
  exact ⟨hnumber (by decide) (UInt32.toNat_ofNat_of_lt'
    (numberAt_lt (hfits (by decide)))),
    hnumber (by decide) (UInt64.toNat_ofNat_of_lt' (numberAt_lt (hfits (by decide)))),
    hhash hparent, hhash htransaction, hhash haccount,
    hnumber (by decide) (UInt32.toNat_ofNat_of_lt' (numberAt_lt (hfits (by decide)))),
    hnumber (by decide) (UInt32.toNat_ofNat_of_lt' (numberAt_lt (hfits (by decide)))),
    hnumber (by decide) (UInt8.toNat_ofNat_of_lt' (numberAt_lt (hfits (by decide)))),
    hnumber (by decide) (UInt8.toNat_ofNat_of_lt' (numberAt_lt (hfits (by decide))))⟩

/-- Strings of 118 octets are read by `decode`, as the header that `toBytes` writes as
them. -/
theorem exists_decode (hlength : bs.length = size) :
    ∃ h, decode bs = .ok h ∧ h.toBytes = bs := by
  obtain ⟨h, hread, hslices⟩ := exists_slices hlength
  exact ⟨h, hread, toBytes_of_slices hlength hslices⟩

/-- Strings are refused by `decode` for their length, and for nothing else. -/
theorem decode_eq_error {e : CodecError} :
    decode bs = .error e ↔
    bs.length ≠ size ∧ e = .invalidLedgerHeader size bs.length := by
  by_cases hlength : bs.length = size
  · obtain ⟨h, hread, -⟩ := exists_decode hlength
    rw [hread]
    exact iff_of_false nofun fun hnot => hnot.1 hlength
  · rw [decode, if_neg hlength, Except.error.injEq, eq_comm]
    exact (and_iff_right hlength).symm

/-- Headers and strings of 118 octets correspond to each other: a header is read by
`decode` from its octets `toBytes`, a string of 118 octets, and no other, is what
`toBytes` makes of the header that is read from it, and strings of other lengths are
refused for their length. -/
theorem decode_bijective :
    (∀ h : LedgerHeader, decode h.toBytes = .ok h) ∧
    (∀ bs : Bytes, bs.length = 118 ↔ ∃ h, decode bs = .ok h ∧ h.toBytes = bs) ∧
    ∀ (bs : Bytes) (e : CodecError),
      decode bs = .error e ↔
      bs.length ≠ 118 ∧ e = .invalidLedgerHeader 118 bs.length := by
  refine ⟨decode_toBytes, fun bs => ⟨exists_decode, ?_⟩, fun bs e => decode_eq_error⟩
  rintro ⟨h, -, rfl⟩
  exact h.length_toBytes

end XrpLedger.LedgerHeader
