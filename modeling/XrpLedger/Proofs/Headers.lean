import XrpLedger.Proofs.Reading
import XrpLedger.Wire.Writer

/-!
# Headers and lengths

A field header and the length of a payload each have one spelling. What a header reads
back as is what it was written for, and the same holds of lengths, but more lengths are
read than written.

- `FieldId.decode_eq_ok`: a header is read exactly where the writer's header stands.
- `FieldId.checkAfter_eq_ok`, `FieldId.Follows`: the canonical order as a predicate.
- `Length.octets`, `Length.encode_eq`, `Length.decode_eq_ok`: the spelling of a length,
  which of them are written and which are read.
-/

namespace XrpLedger

/-! ## Headers -/

namespace FieldId

/-- The first half-octet and the second one can be told apart. -/
theorem nibbles_join {k f : UInt8} (hk : k < 16) (hf : f < 16) :
    (k * 16 + f) / 16 = k ∧ (k * 16 + f) % 16 = f := by
  grind

/-- An octet is its two halves. -/
theorem nibbles_split (b : UInt8) :
    b / 16 * 16 + b % 16 = b ∧ b / 16 < 16 ∧ b % 16 < 16 := by
  grind

/-- No header that `encode` writes is empty. -/
theorem encode_ne_nil {id : FieldId} {u : Bytes} (h : id.encode = .ok u) : u ≠ [] := by
  rintro rfl
  unfold encode at h
  split at h
  · cases h
  · repeat' split at h
    all_goals cases h

/-- What `decode` reads a header as is written by `encode` with the octets of
the header. -/
theorem encode_of_decode {bs : Bytes} {id : FieldId} {k : Nat}
    (h : decode bs = .ok (id, k)) :
    ∃ u w, id.encode = .ok u ∧ bs = u ++ w ∧ k = u.length := by
  cases bs with
  | nil => cases h
  | cons first rest =>
    obtain ⟨hjoin, hhigh, hlow⟩ := nibbles_split first
    simp only [decode] at h
    by_cases hk : first / 16 = 0
    · rw [if_pos hk] at h
      by_cases hf : first % 16 = 0
      · rw [if_pos hf] at h
        -- both codes have octets of their own
        split at h
        · next k f w =>
          split at h
          · next hkf =>
            cases h
            refine ⟨[0, k, f], w, ?_, ?_, rfl⟩
            · simp only [encode]
              grind
            · grind
          · cases h
        · cases h
      · rw [if_neg hf] at h
        -- the code of the kind has an octet of its own
        split at h
        · next k w =>
          split at h
          · next hk16 =>
            cases h
            refine ⟨[first % 16, k], w, ?_, ?_, rfl⟩
            · simp only [encode]
              grind
            · grind
          · cases h
        · cases h
    · rw [if_neg hk] at h
      by_cases hf : first % 16 = 0
      · rw [if_pos hf] at h
        -- the code of the field has an octet of its own
        split at h
        · next f w =>
          split at h
          · next hf16 =>
            cases h
            refine ⟨[first / 16 * 16, f], w, ?_, ?_, rfl⟩
            · simp only [encode]
              grind
            · grind
          · cases h
        · cases h
      · rw [if_neg hf] at h
        cases h
        refine ⟨[first / 16 * 16 + first % 16], rest, ?_, ?_, rfl⟩
        · simp only [encode]
          grind
        · rw [hjoin, List.singleton_append]

/-- A header that `encode` writes is read back by `decode`, whatever follows it. -/
theorem decode_append {id : FieldId} {u : Bytes} (h : id.encode = .ok u) (w : Bytes) :
    decode (u ++ w) = .ok (id, u.length) := by
  obtain ⟨k, f⟩ := id
  simp only [encode] at h
  split at h
  · cases h
  · next hzero =>
    split at h
    · next hk =>
      split at h
      · -- both codes are in one octet
        next hf =>
        cases h
        obtain ⟨hhigh, hlow⟩ := nibbles_join hk hf
        simp only [decode, List.singleton_append, hhigh, hlow]
        grind
      · -- the code of the field is too large for half an octet
        next hf =>
        cases h
        obtain ⟨hhigh, hlow⟩ := nibbles_join hk (show (0 : UInt8) < 16 by decide)
        rw [UInt8.add_zero] at hhigh hlow
        simp only [decode, List.cons_append, hhigh, hlow]
        grind
    · next hk =>
      split at h
      · -- the code of the kind is
        next hf =>
        cases h
        have hhigh : f / 16 = 0 := by grind
        have hlow : f % 16 = f := by grind
        simp only [decode, List.cons_append, hhigh, hlow]
        grind
      · -- both are
        next hf =>
        cases h
        have hhigh : (0 : UInt8) / 16 = 0 := by decide
        have hlow : (0 : UInt8) % 16 = 0 := by decide
        simp only [decode, List.cons_append, hhigh, hlow]
        grind

/-- A header is read by `decode` exactly where the header that `encode` writes for the
same identity stands. -/
theorem decode_eq_ok (bs : Bytes) (id : FieldId) (k : Nat) :
    decode bs = .ok (id, k) ↔ ∃ u w, id.encode = .ok u ∧ bs = u ++ w ∧ k = u.length := by
  constructor
  · exact encode_of_decode
  · rintro ⟨u, w, hu, rfl, rfl⟩
    exact decode_append hu w

theorem encode_objectEnd : objectEnd.encode = .ok [objectEndOctet] := rfl

theorem encode_arrayEnd : arrayEnd.encode = .ok [arrayEndOctet] := rfl

/-- The identity comes after the previous one of its run, if there is one. -/
def Follows (previous : Option FieldId) (id : FieldId) : Prop :=
  ∀ p ∈ previous, p < id

instance (previous : Option FieldId) (id : FieldId) : Decidable (Follows previous id) :=
  inferInstanceAs (Decidable (∀ p ∈ previous, p < id))

theorem follows_none (id : FieldId) : Follows none id := by
  simp [Follows]

theorem follows_some {p id : FieldId} : Follows (some p) id ↔ p < id := by
  simp [Follows]

/-- The check `checkAfter` of the order is the predicate `Follows`. -/
theorem checkAfter_eq_ok {previous : Option FieldId} {id : FieldId} :
    checkAfter previous id = .ok () ↔ Follows previous id := by
  cases previous with
  | none => simp [checkAfter, follows_none]
  | some p =>
    rw [follows_some, checkAfter]
    split <;> simp [*]

/-- A header is written by `headerAfter` if its identity `Follows` the previous one. -/
theorem headerAfter_eq_ok {previous : Option FieldId} {id : FieldId} {u : Bytes} :
    headerAfter previous id = .ok u ↔ Follows previous id ∧ id.encode = .ok u := by
  rw [← checkAfter_eq_ok, headerAfter]
  split <;> simp [*]

/-- A header is written by `headerFor` if the value fits besides. -/
theorem headerFor_eq_ok {previous : Option FieldId} {id : FieldId}
    {v : Value} {u : Bytes} :
    headerFor previous id v = .ok u ↔
    v.Fits id ∧ Follows previous id ∧ id.encode = .ok u := by
  rw [← headerAfter_eq_ok, headerFor]
  split <;> simp [*]

end FieldId

/-! ## Lengths -/

namespace Length

/-- The greatest length that is read. Only those up to `limit` are written. -/
def readLimit : Nat := 929984

/-- The spelling of a length, be it written or only read. -/
def octets (n : Nat) : Bytes :=
  if n ≤ maxSingle then [UInt8.ofNat n]
  else if n ≤ maxDouble then
    [UInt8.ofNat (193 + (n - 193) / 256), UInt8.ofNat ((n - 193) % 256)]
  else
    [UInt8.ofNat (241 + (n - 12481) / 65536), UInt8.ofNat ((n - 12481) / 256 % 256),
      UInt8.ofNat ((n - 12481) % 256)]

/-- A length up to the `limit` is written by `encode` as its `octets`, and others are
refused. -/
theorem encode_eq (n : Nat) :
    encode n = if n ≤ limit then .ok (octets n)
      else .error (.overflow (.length n limit)) := by
  unfold encode octets maxSingle maxDouble limit
  split
  · rw [if_pos (by omega)]
  · split
    · rw [if_pos (by omega)]
    · rfl

/-- A length that `decode` reads has its `octets` in front, and it is no greater than
`readLimit`. -/
theorem encode_of_decode {bs : Bytes} {n k : Nat} (h : decode bs = .ok (n, k)) :
    ∃ w, n ≤ readLimit ∧ bs = octets n ++ w ∧ k = (octets n).length := by
  -- each octet is compared with the number that the spelling has in its place
  have hoctet : ∀ b : UInt8, ∀ m : Nat, m = b.toNat → UInt8.ofNat m = b := by
    rintro b m rfl
    exact UInt8.ofNat_toNat
  cases bs with
  | nil => cases h
  | cons first rest =>
    have hfirst := first.toNat_lt
    simp only [decode] at h
    split at h
    · next hsingle =>
      cases h
      have hoctets : octets first.toNat = [first] := by
        rw [octets, if_pos (by unfold maxSingle; omega), UInt8.ofNat_toNat]
      exact ⟨rest, by unfold readLimit; omega, by rw [hoctets]; rfl, by rw [hoctets]; rfl⟩
    · next hsingle =>
      split at h
      · next hdouble =>
        split at h
        · next c w =>
          cases h
          have hc := c.toNat_lt
          have hoctets : octets (193 + (first.toNat - 193) * 256 + c.toNat) =
              [first, c] := by
            rw [octets, if_neg (by unfold maxSingle; omega),
              if_pos (by unfold maxDouble; omega), hoctet first _ (by omega),
              hoctet c _ (by omega)]
          exact ⟨w, by unfold readLimit; omega, by rw [hoctets]; rfl, by
            rw [hoctets]; rfl⟩
        · cases h
      · next hdouble =>
        split at h
        · -- the first octet leaves room for lengths above those that are written
          next htriple =>
          split at h
          · next c d w =>
            cases h
            have hc := c.toNat_lt
            have hd := d.toNat_lt
            have hoctets :
                octets (12481 + (first.toNat - 241) * 65536 + c.toNat * 256 + d.toNat) =
                  [first, c, d] := by
              rw [octets, if_neg (by unfold maxSingle; omega),
                if_neg (by unfold maxDouble; omega), hoctet first _ (by omega),
                hoctet c _ (by omega), hoctet d _ (by omega)]
            exact ⟨w, by unfold readLimit; omega, by rw [hoctets]; rfl, by
              rw [hoctets]; rfl⟩
          · cases h
          · cases h
        · cases h

/-- A length up to `readLimit` is read back by `decode` from its `octets`, whatever
follows them. -/
theorem decode_append {n : Nat} (hn : n ≤ readLimit) (w : Bytes) :
    decode (octets n ++ w) = .ok (n, (octets n).length) := by
  unfold readLimit at hn
  -- one, two or three octets, as the length asks for
  unfold octets maxSingle maxDouble
  split
  · simp only [List.singleton_append, decode, UInt8.toNat_ofNat']
    rw [if_pos (by omega), Nat.mod_eq_of_lt (by omega)]
    rfl
  · split
    · simp only [List.cons_append, List.nil_append, decode, UInt8.toNat_ofNat']
      rw [if_neg (by omega), if_pos (by omega)]
      simp only [List.length_cons, List.length_nil, Except.ok.injEq,
        Prod.mk.injEq, and_true]
      omega
    · simp only [List.cons_append, List.nil_append, decode, UInt8.toNat_ofNat']
      rw [if_neg (by omega), if_neg (by omega), if_pos (by omega)]
      simp only [List.length_cons, List.length_nil, Except.ok.injEq,
        Prod.mk.injEq, and_true]
      omega

/-- A length is read by `decode` exactly where its spelling `octets` stands. -/
theorem decode_eq_ok (bs : Bytes) (n k : Nat) :
    decode bs = .ok (n, k) ↔
      ∃ u w, (n ≤ readLimit ∧ u = octets n) ∧ bs = u ++ w ∧ k = u.length := by
  constructor
  · intro h
    obtain ⟨w, hn, hbs, hk⟩ := encode_of_decode h
    exact ⟨octets n, w, ⟨hn, rfl⟩, hbs, hk⟩
  · rintro ⟨u, w, ⟨hn, rfl⟩, rfl, rfl⟩
    exact decode_append hn w

end Length

/-! ## Reads -/

namespace Read

variable {n : Nat}

/-- The read `length` takes the `Length.octets` of a length. -/
theorem reads_length :
    Reads n length fun k u => k ≤ Length.readLimit ∧ u = Length.octets k :=
  reads_decoded Length.decode_eq_ok

/-- The read `payload` takes a length and as many octets behind it. -/
theorem reads_payload :
    Reads n payload fun bs u =>
      bs.length ≤ Length.readLimit ∧ u = Length.octets bs.length ++ bs := by
  refine (reads_length.bind fun k => reads_take k).congr fun bs u => ?_
  constructor
  · rintro ⟨k, _, v, ⟨hk, rfl⟩, ⟨rfl, rfl⟩, rfl⟩
    exact ⟨hk, rfl⟩
  · rintro ⟨hk, rfl⟩
    exact ⟨bs.length, _, bs, ⟨hk, rfl⟩, ⟨rfl, rfl⟩, rfl⟩

/-- The decoder of headers makes a read that takes them. -/
theorem reads_header : Reads n (decoded FieldId.decode) fun id u => id.encode = .ok u :=
  reads_decoded FieldId.decode_eq_ok

/-- A header is read by `fieldId?`, or there is nothing left to read. -/
theorem fieldId?_eq_ok {c c' : Cursor} {r : Option FieldId} :
    fieldId? c = (.ok r, c') ↔
      (r = none ∧ c.rest = [] ∧ c' = c) ∨ ∃ id u, r = some id ∧ id.encode = .ok u ∧
        c.Past u c' := by
  unfold fieldId?
  cases hrest : c.rest with
  | nil =>
    constructor
    · intro h
      cases h
      exact .inl ⟨rfl, rfl, rfl⟩
    · rintro (⟨rfl, -, rfl⟩ | ⟨id, u, -, hu, hpast⟩)
      · rfl
      · -- no header is empty
        have hempty := hpast.1
        rw [hrest] at hempty
        exact absurd (List.append_eq_nil_iff.mp hempty.symm).1 (FieldId.encode_ne_nil hu)
  | cons b bs =>
    simp only
    rw [(reads_header.map some) c (Nat.lt_succ_self _) r c']
    constructor
    · rintro ⟨u, ⟨id, hu, rfl⟩, hpast⟩
      exact .inr ⟨id, u, rfl, hu, hpast⟩
    · rintro (⟨-, h, -⟩ | ⟨id, u, rfl, hu, hpast⟩)
      · cases h
      · exact ⟨u, ⟨id, hu, rfl⟩, hpast⟩

/-- The read `fieldId` takes a header. -/
theorem reads_fieldId : Reads n fieldId fun id u => id.encode = .ok u := by
  intro c _ id c'
  unfold fieldId
  rw [bind_eq_ok]
  constructor
  · rintro ⟨r, c₁, hr, h⟩
    obtain ⟨rfl, -, rfl⟩ | ⟨id', u, rfl, hu, hpast⟩ := fieldId?_eq_ok.mp hr
    · cases h
    · cases h
      exact ⟨u, hu, hpast⟩
  · rintro ⟨u, hu, hpast⟩
    exact ⟨some id, c', fieldId?_eq_ok.mpr (.inr ⟨id, u, rfl, hu, hpast⟩), rfl⟩

end Read

end XrpLedger
