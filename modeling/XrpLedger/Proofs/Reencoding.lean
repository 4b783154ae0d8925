import XrpLedger.Proofs.RoundTrip

/-!
# Writing what was read

What was read is written again as the octets it was read from, with two exceptions.
Payloads may be read that are too long to be written, and the native amount of nothing may
be read without its sign bit.

- `Object.exists_segments_of_decode`: the outcome of writing what was read, segment by
  segment.
- `Object.reencode_decoded`: which strings are written again, and as what.
-/

namespace XrpLedger.Object

variable {o : Object} {bs : Bytes}

/-- What `decode` read has segments, the ones that `Segment.split` cuts, and they tell
with `Segment.Rewrites` the outcome of `encode`. -/
theorem exists_segments_of_decode (h : decode bs = .ok o) :
    ∃ segments, Segment.split bs = some segments ∧ segments.flatMap Segment.octets = bs ∧
      Segment.Rewrites segments (encode o) := by
  have hread := decode_eq_ok.mp h
  obtain ⟨segments, hlayout⟩ := exists_layout hread.spells hread.inOrder
  exact ⟨segments, hlayout.splits.split_eq, hlayout.splits.1, hlayout.rewrites⟩

/-- What `decode` read cannot be written again by `encode` if and only if the payload of a
blob or of a list of hashes is oversized, and then its length is refused. Otherwise it is
written as the string it was read from, with the sign bit set in each amount of eight
zeros, and this is read by `decode` as the same object. -/
theorem reencode_decoded (h : decode bs = .ok o) :
    ∃ segments, Segment.split bs = some segments ∧ segments.flatMap Segment.octets = bs ∧
      ((∃ e, encode o = .error e) ↔ ∃ s ∈ segments, s.IsOversized) ∧
      (∀ e, encode o = .error e → ∃ n, e = .overflow (.length n Length.limit)) ∧
      ∀ bs', encode o = .ok bs' →
        bs' = segments.flatMap Segment.signed ∧ bs'.length = bs.length ∧
          (bs' = bs ↔ ∀ s ∈ segments, ¬ s.LacksSign) ∧ decode bs' = .ok o := by
  obtain ⟨segments, hsplit, hoctets, hrewrites⟩ := exists_segments_of_decode h
  refine ⟨segments, hsplit, hoctets, ?_, ?_, ?_⟩
  · cases hencode : encode o with
    | error e =>
      rw [hencode] at hrewrites
      exact iff_of_true ⟨e, rfl⟩ hrewrites.1
    | ok bs' =>
      rw [hencode] at hrewrites
      refine iff_of_false (by simp) ?_
      rintro ⟨s, hs, hbig⟩
      exact hrewrites.1 s hs hbig
  · intro e he
    rw [he] at hrewrites
    exact hrewrites.2
  · intro bs' hbs'
    -- what was written is read as any canonical tree is
    have hback := (canonical_of_decode h).decode_encode hbs'
    rw [hbs'] at hrewrites
    obtain ⟨-, rfl⟩ := hrewrites
    refine ⟨rfl, ?_, ?_, hback⟩
    · rw [Segment.length_flatMap_signed, hoctets]
    · rw [← hoctets]
      exact Segment.flatMap_signed_eq_iff segments

/-- The native amount of nothing `68 00 … 00` is written with its sign bit, as `68 40 …
00`, also inside an inner object. -/
theorem reencode_decoded_unsigned :
    ∃ o, decode [0xEA, 0x68, 0, 0, 0, 0, 0, 0, 0, 0, 0xE1] = .ok o ∧
      encode o = .ok [0xEA, 0x68, 0x40, 0, 0, 0, 0, 0, 0, 0, 0xE1] := by
  obtain ⟨o, ho⟩ : ∃ o, decode [0xEA, 0x68, 0, 0, 0, 0, 0, 0, 0, 0, 0xE1] = .ok o :=
    ⟨_, rfl⟩
  obtain ⟨segments, hsplit, -, hfails, -, hwritten⟩ := reencode_decoded ho
  cases hsplit
  cases hencode : encode o with
  | error e => exact absurd (hfails.mp ⟨e, hencode⟩) (by decide)
  | ok bs' =>
    obtain ⟨rfl, -⟩ := hwritten bs' hencode
    exact ⟨o, ho, hencode⟩

end XrpLedger.Object
