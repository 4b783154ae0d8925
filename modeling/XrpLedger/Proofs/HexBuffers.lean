import XrpLedger.Proofs.HexText

/-!
# Hexadecimal text into a given destination

A call with a fixed destination says how much of the source it has read and how much of
the destination it has written. All of that is right when it writes digits, and when it
reads digits to the end or does not begin. Where it meets a bad digit behind good ones it
says that nothing was written, although the octets of the digits before it stand in the
destination.

- `Text.Hex.Reported`, `Text.Hex.Framed`: what a report says of the call, and that all
  else is as it was.
- `Text.Hex.Interrupted`: the texts that are read up to a bad digit.
- `Text.Hex.exists_interruption`: where reading pairs of digits stops.
- `Text.Hex.decodeInto_cases`: what becomes of a call that reads.
- `Text.Hex.into_reported`: which reports are right.
-/

namespace XrpLedger.Text.Hex

variable {src dst front rest bs out : Bytes} {hi lo : UInt8}
    {position : Nat} {fault : Fault}

/-! ## Reports -/

/-- The relation of `Reported` for writing: octets, and the digits that `encode` writes
for them. -/
def Encodes (src out : Bytes) : Prop :=
  Bytes.ofText (encode src) = out

/-- The relation of `Reported` for reading: a text, and the octets that `parse` reads from
it. -/
def Decodes (src out : Bytes) : Prop :=
  ∃ text, Bytes.ofText text = src ∧ parse text = .ok out

/-- What a call reports is what it did: what it wrote at the front of the destination is
made by `codec` of what it consumed of the source, and it is done with all of the source
exactly if what is made of that fits. -/
structure Reported (codec : Bytes → Bytes → Prop) (src dst : Bytes)
    (outcome : Progress × Bytes) :
    Prop where
  consumed_le : outcome.1.consumed ≤ src.length
  written_le : outcome.1.written ≤ dst.length
  front : codec (src.take outcome.1.consumed) (outcome.2.take outcome.1.written)
  done_iff : outcome.1.status = .done ∧ outcome.1.consumed = src.length ↔
    ∃ out, codec src out ∧ out.length ≤ dst.length

/-- The destination is as it was behind what was written. -/
structure Framed (dst : Bytes) (outcome : Progress × Bytes) : Prop where
  length_eq : outcome.2.length = dst.length
  behind : ∀ i, outcome.1.written ≤ i → outcome.2[i]? = dst[i]?

/-- The text, of whole pairs for which there is room, reads as octets up to a pair with a
bad digit. -/
structure Interrupted (src dst bs : Bytes) : Prop where
  even : src.length % 2 = 0
  fits : src.length / 2 ≤ dst.length
  stops : ∃ front hi lo rest, src = front ++ hi :: lo :: rest ∧
    decodeUtf8 front = .ok bs ∧
    (octetValue? hi = none ∨ octetValue? lo = none)

/-! ## Overwriting -/

theorem length_overwrite (h : bs.length ≤ dst.length) :
    (overwrite dst bs).length = dst.length := by
  rw [overwrite, List.length_append, List.length_drop]
  omega

theorem take_overwrite (dst bs : Bytes) : (overwrite dst bs).take bs.length = bs :=
  List.take_left ..

theorem getElem?_overwrite {i : Nat} (h : bs.length ≤ i) :
    (overwrite dst bs)[i]? = dst[i]? := by
  rw [overwrite, List.getElem?_append_right h, List.getElem?_drop, Nat.add_sub_cancel' h]

/-- A report of all that `overwrite` wrote is right about the rest of the destination. -/
theorem framed_overwrite {status : Status} {consumed : Nat} (h : bs.length ≤ dst.length) :
    Framed dst (⟨status, consumed, bs.length⟩, overwrite dst bs) :=
  ⟨length_overwrite h, fun _ hi => getElem?_overwrite hi⟩

/-- If `overwrite` wrote octets and none of them is reported, then `Framed` asks that they
stood there before. -/
theorem framed_unreported_iff {status : Status} {consumed : Nat} :
    Framed dst (⟨status, consumed, 0⟩, overwrite dst bs) ↔ dst.take bs.length = bs := by
  constructor
  · rintro ⟨-, hbehind⟩
    have hsame : overwrite dst bs = dst :=
      List.ext_getElem? fun i => hbehind i (Nat.zero_le i)
    rw [← hsame]
    exact take_overwrite dst bs
  · intro htake
    have hsame : overwrite dst bs = dst :=
      calc overwrite dst bs = bs ++ dst.drop bs.length := rfl
        _ = dst.take bs.length ++ dst.drop bs.length := by rw [htake]
        _ = dst := List.take_append_drop _ _
    rw [hsame]
    exact ⟨rfl, fun _ _ => rfl⟩

/-! ## Where reading stops -/

/-- The octets that `decodeUtf8` reads are those that `decodePairs` reads from whole
pairs, from any position on. -/
theorem decodeUtf8_iff_pairs (position : Nat) :
    decodeUtf8 src = .ok bs ↔
    src.length % 2 = 0 ∧ decodePairs position src = (bs, none) := by
  constructor
  · intro h
    have hchars := decodeUtf8_eq_ok.mp h
    have heven : src.length % 2 = 0 := by
      rw [length_of_upperChars_eq hchars, Nat.mul_mod_right]
    exact ⟨heven, (decodePairs_eq_iff position heven).mpr hchars⟩
  · rintro ⟨heven, h⟩
    exact decodeUtf8_eq_ok.mpr ((decodePairs_eq_iff position heven).mp h)

/-- A pair with a bad digit ends `decodePairs` with a fault. -/
theorem decodePairs_bad (h : octetValue? hi = none ∨ octetValue? lo = none) :
    ∃ fault, decodePairs position (hi :: lo :: rest) = ([], some fault) := by
  rw [decodePairs]
  cases hhi : octetValue? hi with
  | none => exact ⟨_, rfl⟩
  | some _ =>
    cases hlo : octetValue? lo with
    | none => exact ⟨_, rfl⟩
    | some _ =>
      rw [hhi, hlo] at h
      rcases h with h | h <;> cases h

theorem decodePairs_cons {h l : Nat} (hhi : octetValue? hi = some h)
    (hlo : octetValue? lo = some l) : decodePairs position (hi :: lo :: rest) =
      (UInt8.ofNat (h * 16 + l) :: (decodePairs (position + 2) rest).1,
        (decodePairs (position + 2) rest).2) := by
  rw [decodePairs, hhi, hlo]

/-- Behind a text of whole pairs of digits `decodePairs` goes on. -/
theorem decodePairs_append (heven : front.length % 2 = 0)
    (h : decodePairs position front = (bs, none)) :
    decodePairs position (front ++ rest) =
      (bs ++ (decodePairs (position + front.length) rest).1,
        (decodePairs (position + front.length) rest).2) := by
  -- one case for each way that `decodePairs` takes: a good pair, two bad ones, the end
  fun_induction decodePairs position front generalizing bs with
  | case1 position hi lo others high low hlo hhi octets _ hothers ih =>
    obtain ⟨rfl, rfl⟩ := Prod.mk.inj h
    have hrest : others.length % 2 = 0 := by
      rw [List.length_cons, List.length_cons] at heven
      omega
    have hposition : position + 2 + others.length =
        position + (hi :: lo :: others).length := by
      rw [List.length_cons, List.length_cons]
      omega
    rw [List.cons_append, List.cons_append, decodePairs_cons hhi hlo,
      ih hrest hothers, hposition]
    rfl
  | case2 => cases h
  | case3 => cases h
  | case4 u position hshort =>
    cases h
    match u with
    | [] => rfl
    | [_] => cases heven
    | _ :: _ :: _ => exact absurd rfl (hshort _ _ _)

/-- A fault of `decodePairs` is a pair with a bad digit, behind whole pairs of digits that
it has read. -/
theorem exists_interruption (h : decodePairs position src = (bs, some fault)) :
    ∃ front hi lo rest, src = front ++ hi :: lo :: rest ∧ front.length % 2 = 0 ∧
      decodePairs position front = (bs, none) ∧
        (octetValue? hi = none ∨ octetValue? lo = none) := by
  -- a good pair is put in front of what is read behind it; at a bad pair nothing is
  fun_induction decodePairs position src generalizing bs with
  | case1 position hi lo others high low hlo hhi octets _ hothers ih =>
    obtain ⟨rfl, rfl⟩ := Prod.mk.inj h
    obtain ⟨front, hi', lo', rest, rfl, heven, hfront, hbad⟩ := ih hothers
    refine ⟨hi :: lo :: front, hi', lo', rest, rfl, ?_, ?_, hbad⟩
    · rw [List.length_cons, List.length_cons]
      omega
    · rw [decodePairs_cons hhi hlo, hfront]
  | case2 position hi lo others hhi =>
    cases h
    exact ⟨[], hi, lo, others, rfl, rfl, rfl, .inl hhi⟩
  | case3 position hi lo others high hlo =>
    cases h
    exact ⟨[], hi, lo, others, rfl, rfl, rfl, .inr hlo⟩
  | case4 => cases h

/-- A text of whole pairs is read with a fault exactly if `decodeUtf8` reads the part of
it before a bad digit; this is what `Interrupted` says. -/
theorem decodePairs_fault_iff (heven : src.length % 2 = 0) :
    (∃ fault, decodePairs 0 src = (bs, some fault)) ↔
      ∃ front hi lo rest, src = front ++ hi :: lo :: rest ∧ decodeUtf8 front = .ok bs ∧
        (octetValue? hi = none ∨ octetValue? lo = none) := by
  constructor
  · rintro ⟨fault, h⟩
    obtain ⟨front, hi, lo, rest, hsrc, hfront, hread, hbad⟩ := exists_interruption h
    exact ⟨front, hi, lo, rest, hsrc, (decodeUtf8_iff_pairs 0).mpr ⟨hfront, hread⟩, hbad⟩
  · rintro ⟨front, hi, lo, rest, rfl, hread, hbad⟩
    obtain ⟨hfront, hread⟩ := (decodeUtf8_iff_pairs 0).mp hread
    obtain ⟨fault, hfault⟩ :
        ∃ fault, decodePairs (0 + front.length) (hi :: lo :: rest) = ([], some fault) :=
      decodePairs_bad hbad
    refine ⟨fault, ?_⟩
    rw [decodePairs_append hfront hread, hfault, List.append_nil]

/-- The octets before the bad digit fit into the destination, since those of the whole
text would. -/
theorem Interrupted.length_le (h : Interrupted src dst bs) : bs.length ≤ dst.length := by
  obtain ⟨front, hi, lo, rest, rfl, hread, -⟩ := h.stops
  have hfront := length_of_upperChars_eq (decodeUtf8_eq_ok.mp hread)
  have hfits := h.fits
  rw [List.length_append] at hfits
  omega

/-! ## What becomes of a call -/

/-- With room for all digits `encodeInto` writes them, and without it `encodeInto` writes
nothing. -/
theorem encodeInto_of_le (h : 2 * src.length ≤ dst.length) :
    encodeInto src dst =
      (⟨.done, src.length, (encodeUtf8 src).length⟩, overwrite dst (encodeUtf8 src)) := by
  unfold encodeInto encodedLength
  rw [if_neg (by omega), length_encodeUtf8, Nat.mul_comm]

theorem encodeInto_of_lt (h : dst.length < 2 * src.length) :
    encodeInto src dst = (⟨.destinationTooSmall, 0, 0⟩, dst) := by
  unfold encodeInto encodedLength
  exact if_pos (by omega)

/-- An odd text is refused by `decodeInto` before anything is written, and so is one for
whose octets there is no room. -/
theorem decodeInto_of_odd (h : src.length % 2 = 1) :
    decodeInto src dst = (⟨.invalidData, 0, 0⟩, dst) := by
  have hnone : decodedLength? src.length = none := if_neg (by omega)
  rw [decodeInto, hnone]

theorem decodeInto_of_lt (heven : src.length % 2 = 0) (h : dst.length < src.length / 2) :
    decodeInto src dst = (⟨.destinationTooSmall, 0, 0⟩, dst) := by
  have hsome : decodedLength? src.length = some (src.length / 2) := if_pos heven
  rw [decodeInto, hsome]
  exact if_pos h

/-- Otherwise `decodeInto` writes what `decodePairs` has read, also when that ended with a
fault. -/
theorem decodeInto_of_le (heven : src.length % 2 = 0) (h : src.length / 2 ≤ dst.length) :
    decodeInto src dst =
      match decodePairs 0 src with
      | (bs, none) => (⟨.done, src.length, src.length / 2⟩, overwrite dst bs)
      | (bs, some _) => (⟨.invalidData, 0, 0⟩, overwrite dst bs) := by
  have hsome : decodedLength? src.length = some (src.length / 2) := if_pos heven
  rw [decodeInto, hsome]
  exact if_neg (Nat.not_lt.mpr h)

/-- An interrupted call of `decodeInto` reports nothing, and has written the octets before
the bad digit. -/
theorem Interrupted.decodeInto_eq (h : Interrupted src dst bs) :
    decodeInto src dst = (⟨.invalidData, 0, 0⟩, overwrite dst bs) := by
  obtain ⟨fault, hfault⟩ := (decodePairs_fault_iff h.even).mpr h.stops
  rw [decodeInto_of_le h.even h.fits, hfault]

/-- A text that `decodeUtf8` reads is written and reported in full, if its octets fit. -/
theorem decodeInto_of_ok (h : decodeUtf8 src = .ok bs) (hfits : bs.length ≤ dst.length) :
    decodeInto src dst = (⟨.done, src.length, bs.length⟩, overwrite dst bs) := by
  have hlength := length_of_upperChars_eq (decodeUtf8_eq_ok.mp h)
  have hhalf : src.length / 2 = bs.length := by omega
  obtain ⟨heven, hread⟩ := (decodeUtf8_iff_pairs 0).mp h
  rw [decodeInto_of_le heven (hhalf ▸ hfits), hread]
  simp only
  rw [hhalf]

/-- A call of `decodeInto` comes to the end, or is `Interrupted`, or does not begin. -/
theorem decodeInto_cases (src dst : Bytes) :
    (∃ bs, decodeUtf8 src = .ok bs ∧ bs.length ≤ dst.length) ∨
    (∃ bs, Interrupted src dst bs) ∨
      (∀ bs, decodeUtf8 src = .ok bs → dst.length < bs.length) ∧
        ∃ status, status ≠ .done ∧ decodeInto src dst = (⟨status, 0, 0⟩, dst) := by
  have hhalf : ∀ bs, decodeUtf8 src = .ok bs → src.length = 2 * bs.length := fun bs h =>
    length_of_upperChars_eq (decodeUtf8_eq_ok.mp h)
  by_cases heven : src.length % 2 = 0
  · by_cases hfits : src.length / 2 ≤ dst.length
    · cases hread : decodePairs 0 src with
      | mk bs fault? =>
        -- the text has whole pairs and there is room: it depends on the digits
        cases fault? with
        | none =>
          have hok := (decodeUtf8_iff_pairs 0).mpr ⟨heven, hread⟩
          have hlength := hhalf bs hok
          exact .inl ⟨bs, hok, by omega⟩
        | some fault =>
          exact .inr (.inl ⟨bs, heven, hfits,
            (decodePairs_fault_iff heven).mp ⟨fault, hread⟩⟩)
    -- no room for the octets
    · have hsmall : dst.length < src.length / 2 := Nat.not_le.mp hfits
      refine .inr (.inr ⟨fun bs h => ?_, .destinationTooSmall, nofun,
        decodeInto_of_lt heven hsmall⟩)
      have hlength := hhalf bs h
      omega
  -- half a pair
  · have hodd : src.length % 2 = 1 := by omega
    refine .inr (.inr ⟨fun bs h => ?_, .invalidData, nofun, decodeInto_of_odd hodd⟩)
    have hlength := hhalf bs h
    omega

/-! ## Reports that are right -/

section

variable {codec : Bytes → Bytes → Prop} {outcome : Bytes}

/-- The report of a call that is done is right, whatever the `codec`. -/
theorem reported_done (hout : codec src out) (hfits : out.length ≤ dst.length) :
    Reported codec src dst (⟨.done, src.length, out.length⟩, overwrite dst out) where
  consumed_le := Nat.le_refl _
  written_le := hfits
  front := by
    show codec (src.take src.length) ((overwrite dst out).take out.length)
    rw [List.take_length, take_overwrite]
    exact hout
  done_iff := iff_of_true ⟨rfl, rfl⟩ ⟨out, hout, hfits⟩

/-- Nothing is made of nothing, so that a report of nothing is right of a call that is not
done. -/
theorem reported_nothing {status : Status} (hempty : codec [] [])
    (hstatus : status ≠ .done) (hout : ∀ out, codec src out → dst.length < out.length) :
    Reported codec src dst (⟨status, 0, 0⟩, outcome) where
  consumed_le := Nat.zero_le _
  written_le := Nat.zero_le _
  front := hempty
  done_iff := by
    refine iff_of_false (fun h => hstatus h.1) ?_
    rintro ⟨out, hcodec, hfits⟩
    exact absurd (hout out hcodec) (Nat.not_lt.mpr hfits)

end

/-! ## Writing digits -/

/-- What `encodeInto` reports is what it did, and the rest is as it was. -/
theorem reported_encodeInto (src dst : Bytes) :
    Reported Encodes src dst (encodeInto src dst) ∧ Framed dst (encodeInto src dst) := by
  have hcodec : Encodes src (encodeUtf8 src) := ofText_encode src
  have hlength := length_encodeUtf8 src
  by_cases hfits : 2 * src.length ≤ dst.length
  · rw [encodeInto_of_le hfits]
    rw [← hlength] at hfits
    exact ⟨reported_done hcodec hfits, framed_overwrite hfits⟩
  · have hsmall : dst.length < 2 * src.length := Nat.not_le.mp hfits
    rw [encodeInto_of_lt hsmall]
    refine ⟨reported_nothing rfl nofun fun out hout => ?_, rfl, fun _ _ => rfl⟩
    obtain rfl : encodeUtf8 src = out := hcodec.symm.trans hout
    rwa [hlength]

/-! ## Reading digits -/

variable {text : String}

/-- The relation `Decodes` is what `decodeUtf8` reads, since texts of the same octets are
read alike. -/
theorem decodes_iff :
    Decodes (Bytes.ofText text) out ↔ decodeUtf8 (Bytes.ofText text) = .ok out := by
  have hparse : ∀ text, parse text = .ok out ↔
      decodeUtf8 (Bytes.ofText text) = .ok out := by
    intro text
    rw [parse, decode]
    cases decodeUtf8 (Bytes.ofText text) with
    | ok bs => rw [Except.ok.injEq, Except.ok.injEq]
    | error fault => exact iff_of_false (by simp) (by simp)
  constructor
  · rintro ⟨other, hother, h⟩
    rw [← hother]
    exact (hparse other).mp h
  · intro h
    exact ⟨text, rfl, (hparse text).mpr h⟩

/-- An interrupted text is not one that `decodeUtf8` reads. -/
theorem Interrupted.decodeUtf8_ne (h : Interrupted src dst bs) :
    decodeUtf8 src ≠ .ok out := by
  intro hok
  obtain ⟨fault, hfault⟩ := (decodePairs_fault_iff h.even).mpr h.stops
  have hread := ((decodeUtf8_iff_pairs 0).mp hok).2
  rw [hfault] at hread
  cases hread

/-- What `decodeInto` reports is what it did, also where it reports nothing. -/
theorem reported_decodeInto (text : String) (dst : Bytes) :
    Reported Decodes (Bytes.ofText text) dst (decodeInto (Bytes.ofText text) dst) := by
  have hempty : Decodes [] [] := ⟨"", rfl, rfl⟩
  rcases decodeInto_cases (Bytes.ofText text) dst with
    ⟨bs, hok, hfits⟩ | ⟨bs, h⟩ | ⟨hsmall, status, hstatus, heq⟩
  · rw [decodeInto_of_ok hok hfits]
    exact reported_done (decodes_iff.mpr hok) hfits
  · rw [h.decodeInto_eq]
    exact reported_nothing hempty nofun fun out hout =>
      absurd (decodes_iff.mp hout) h.decodeUtf8_ne
  · rw [heq]
    exact reported_nothing hempty hstatus fun out hout => hsmall out (decodes_iff.mp hout)

/-- What `decodeInto` does not report is as it was, unless the call was `Interrupted`
behind octets that the destination did not hold before. -/
theorem framed_decodeInto_iff (src dst : Bytes) :
    Framed dst (decodeInto src dst) ↔
    ∀ bs, Interrupted src dst bs → dst.take bs.length = bs := by
  constructor
  · intro hframed bs h
    rw [h.decodeInto_eq] at hframed
    exact framed_unreported_iff.mp hframed
  · intro htake
    rcases decodeInto_cases src dst with ⟨bs, hok, hfits⟩ | ⟨bs, h⟩ | ⟨-, status, -, heq⟩
    · rw [decodeInto_of_ok hok hfits]
      exact framed_overwrite hfits
    · rw [h.decodeInto_eq]
      exact framed_unreported_iff.mpr (htake bs h)
    · rw [heq]
      exact ⟨rfl, fun _ _ => rfl⟩

/-- What a call with a fixed destination reports is what it did, and what it does not
report of the destination is as it was, but for a text with a bad digit behind good ones:
for an `Interrupted` call of `decodeInto` nothing is reported, and the octets of the pairs
before the bad one have been written. -/
theorem into_reported (src : Bytes) (text : String) (dst : Bytes) :
    (Reported Encodes src dst (encodeInto src dst) ∧ Framed dst (encodeInto src dst)) ∧
    Reported Decodes (Bytes.ofText text) dst (decodeInto (Bytes.ofText text) dst) ∧
    (Framed dst (decodeInto (Bytes.ofText text) dst) ↔
      ∀ bs, Interrupted (Bytes.ofText text) dst bs → dst.take bs.length = bs) ∧
    ∀ bs, Interrupted (Bytes.ofText text) dst bs → bs.length ≤ dst.length ∧
      decodeInto (Bytes.ofText text) dst = (⟨.invalidData, 0, 0⟩, overwrite dst bs) := by
  refine ⟨reported_encodeInto src dst, reported_decodeInto text dst,
    framed_decodeInto_iff _ dst, fun bs h => ?_⟩
  exact ⟨h.length_le, h.decodeInto_eq⟩

/-- Two good digits and two bad ones, into four octets. -/
theorem into_reported_interrupted :
    Interrupted (Bytes.ofText "abzz") [0, 0, 0, 0] [0xAB] ∧
      decodeInto (Bytes.ofText "abzz") [0, 0, 0, 0] =
      (⟨.invalidData, 0, 0⟩, [0xAB, 0, 0, 0]) := by
  have hstops : Interrupted (Bytes.ofText "abzz") [0, 0, 0, 0] [0xAB] :=
    ⟨rfl, by decide, Bytes.ofText "ab", 0x7A, 0x7A, [], rfl, rfl, .inl rfl⟩
  obtain ⟨-, -, -, hinterrupted⟩ := into_reported [] "abzz" [0, 0, 0, 0]
  exact ⟨hstops, (hinterrupted _ hstops).2⟩

/-- Not all that `decodeInto` does to the destination is reported. -/
theorem decodeInto_unreported :
    ¬ ∀ (text : String) (dst : Bytes),
    Framed dst (decodeInto (Bytes.ofText text) dst) := by
  intro h
  have hfirst := (h "abzz" [0, 0, 0, 0]).behind 0 (Nat.le_refl 0)
  revert hfirst
  decide

end XrpLedger.Text.Hex
