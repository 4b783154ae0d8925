import XrpLedger.Proofs.Headers

/-!
# Which lengths are read

Up to the greatest length that is written, a length is read exactly from the octets that
it is written with. The greatest first octet leaves room for more, and so there are
lengths that are read and never written.

- `Length.decode_eq_ok_iff_take`: a length is read where its spelling stands in front.
- `Length.octets_eq_above`: the spellings of the lengths above those that are written.
- `Length.decode_iff_encode`: what is read is written with the same octets, or it is above
  the limit.
- `Length.decode_unwritten`: the least length that is read and not written.
-/

namespace XrpLedger.Length

variable {bs : Bytes} {n k : Nat}

/-- A length is read by `decode` exactly if its spelling `octets` is in front. -/
theorem decode_eq_ok_iff_take :
    decode bs = .ok (n, k) ↔ n ≤ readLimit ∧ k ≤ bs.length ∧ bs.take k = octets n := by
  rw [decode_eq_ok]
  constructor
  · rintro ⟨u, w, ⟨hn, rfl⟩, rfl, rfl⟩
    exact ⟨hn, by simp, List.take_left⟩
  · rintro ⟨hn, hk, htake⟩
    refine ⟨bs.take k, bs.drop k, ⟨hn, htake⟩, (List.take_append_drop k bs).symm, ?_⟩
    rw [List.length_take, Nat.min_eq_left hk]

/-- Up to the `limit`, a length is written by `encode` as its spelling `octets`. -/
theorem encode_eq_ok {u : Bytes} : encode n = .ok u ↔ n ≤ limit ∧ octets n = u := by
  rw [encode_eq]
  by_cases hn : n ≤ limit
  · rw [if_pos hn, Except.ok.injEq]
    exact (and_iff_right hn).symm
  · rw [if_neg hn]
    exact iff_of_false nofun fun h => hn h.1

/-- Above the `limit`, a length is refused by `encode`. -/
theorem encode_eq_error :
    encode n = .error (.overflow (.length n limit)) ↔ limit < n := by
  rw [encode_eq]
  by_cases hn : n ≤ limit
  · rw [if_pos hn]
    exact iff_of_false nofun (Nat.not_lt.mpr hn)
  · rw [if_neg hn]
    exact iff_of_true rfl (Nat.lt_of_not_le hn)

/-- The least length that is spelled with the greatest first octet. -/
def lastTier : Nat := 12481 + 13 * 65536

/-- A length between `limit` and `readLimit`, which is read and not written, is spelled
with the greatest first octet, and two more octets for what is above `lastTier`. -/
theorem octets_eq_above (hn : limit < n) {u : Bytes} :
    n ≤ readLimit ∧ u = octets n ↔
      ∃ c d : UInt8, u = [254, c, d] ∧ n = lastTier + c.toNat * 256 + d.toNat := by
  unfold limit at hn
  unfold readLimit lastTier
  -- above the limit, all spellings have three octets
  have hoctets : octets n = [UInt8.ofNat (241 + (n - 12481) / 65536),
      UInt8.ofNat ((n - 12481) / 256 % 256), UInt8.ofNat ((n - 12481) % 256)] := by
    rw [octets, if_neg (by unfold maxSingle; omega), if_neg (by unfold maxDouble; omega)]
  rw [hoctets]
  constructor
  · rintro ⟨hread, rfl⟩
    have hfirst : 241 + (n - 12481) / 65536 = 254 := by omega
    refine ⟨_, _, by rw [hfirst]; rfl, ?_⟩
    rw [UInt8.toNat_ofNat', UInt8.toNat_ofNat']
    omega
  · rintro ⟨c, d, rfl, hvalue⟩
    have hc := c.toNat_lt
    have hd := d.toNat_lt
    have hfirst : 241 + (n - 12481) / 65536 = 254 := by omega
    have hsecond : (n - 12481) / 256 % 256 = c.toNat := by omega
    have hthird : (n - 12481) % 256 = d.toNat := by omega
    refine ⟨by omega, ?_⟩
    rw [hfirst, hsecond, hthird, UInt8.ofNat_toNat, UInt8.ofNat_toNat]
    rfl

/-- What `decode` reads as a length are the octets that `encode` writes the length with.
The only other lengths that are read are above the `limit` of those that are written, and
they are read from three octets, the first of which is the greatest one that a length
begins with. -/
theorem decode_iff_encode (bs : Bytes) (n k : Nat) :
    decode bs = .ok (n, k) ↔
      (k ≤ bs.length ∧ encode n = .ok (bs.take k)) ∨
      (encode n = .error (.overflow (.length n limit)) ∧ k = 3 ∧
        ∃ c d : UInt8, bs.take 3 = [254, c, d] ∧
          n = lastTier + c.toNat * 256 + d.toNat) := by
  rw [decode_eq_ok_iff_take, encode_eq_ok, encode_eq_error]
  by_cases hn : n ≤ limit
  · -- the length is written
    have hread : n ≤ readLimit := Nat.le_trans hn (by decide)
    constructor
    · rintro ⟨-, hk, htake⟩
      exact .inl ⟨hk, hn, htake.symm⟩
    · rintro (⟨hk, -, htake⟩ | ⟨habove, -⟩)
      · exact ⟨hread, hk, htake.symm⟩
      · exact absurd hn (Nat.not_le.mpr habove)
  · -- the length is read only, if at all
    have habove : limit < n := Nat.lt_of_not_le hn
    constructor
    · rintro ⟨hread, hk, htake⟩
      obtain ⟨c, d, hthree, hvalue⟩ := (octets_eq_above habove).mp ⟨hread, htake⟩
      have hlength := congrArg List.length hthree
      rw [List.length_take, Nat.min_eq_left hk] at hlength
      obtain rfl : k = 3 := hlength
      exact .inr ⟨habove, rfl, c, d, hthree, hvalue⟩
    · rintro (⟨-, hwritten, -⟩ | ⟨-, rfl, c, d, hthree, hvalue⟩)
      · exact absurd hwritten hn
      · obtain ⟨hread, htake⟩ := (octets_eq_above habove).mpr ⟨c, d, hthree, hvalue⟩
        have hlength : min 3 bs.length = 3 := by rw [← List.length_take, hthree]; rfl
        exact ⟨hread, by omega, htake⟩

/-- The least length above the `limit` is read by `decode`, and `encode` refuses it. -/
theorem decode_unwritten :
    decode [254, 0xD4, 0x18] = .ok (limit + 1, 3) ∧
      encode (limit + 1) = .error (.overflow (.length (limit + 1) limit)) :=
  ⟨rfl, rfl⟩

end XrpLedger.Length
