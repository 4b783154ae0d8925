import XrpLedger.Key.KeyPair
import XrpLedger.Proofs.StrictForm

/-!
# Forms of signatures

From a signature `(r, s)` over secp256k1 anyone can make `(r, -s)`, which is one as well,
and a number can be written in many ways. Neither is of use here: signatures are made with
the lesser of `s` and `-s` and in strict form, and no others are accepted.

- `Ecdsa.IsLowPair`, `Ecdsa.SameUpToSign`: pairs of the lesser `s`, and the pairs that are
  made of one.
- `Ecdsa.isLowPair_of_sign?`, `Ecdsa.IsLowPair.eq_of_sameUpToSign`: signatures are made of
  such pairs, and no two of these are made of each other.
- `PublicKey.verify_inv`: what is accepted is the strict form of such a pair.
- `Ecdsa.signature_unique`: the form of the signatures that are made, and of those that
  are accepted.
-/

namespace XrpLedger

namespace Ecdsa

open Secp256k1

variable {r r' s s' : Nat}

/-! ## The lesser of two -/

/-- Two scalars other than zero, of which the second is the lesser of itself and its
negative. -/
structure IsLowPair (r s : Nat) : Prop where
  r_pos : 0 < r
  r_lt : r < order
  s_pos : 0 < s
  s_le : s ≤ order / 2

/-- Two numbers are the same modulo the order of the group, or the negatives of each
other. -/
def SameUpToSign (s s' : Nat) : Prop :=
  s ≡ s' [MOD order] ∨ s + s' ≡ 0 [MOD order]

instance (s s' : Nat) : Decidable (SameUpToSign s s') :=
  inferInstanceAs (Decidable (_ ∨ _))

theorem order_odd : order = 2 * (order / 2) + 1 := by decide

theorem order_lt : order < 2 ^ 256 := by decide

theorem isLow_iff : isLow s = true ↔ s ≤ order / 2 := by
  rw [isLow, decide_eq_true_eq]

theorem isLowPair_iff :
    IsLowPair r s ↔ isScalar r = true ∧ isScalar s = true ∧ isLow s = true := by
  have hodd := order_odd
  rw [isScalar_iff, isScalar_iff, isLow_iff]
  constructor
  · rintro ⟨hr, hr', hs, hs'⟩
    exact ⟨⟨hr, hr'⟩, ⟨hs, by omega⟩, hs'⟩
  · rintro ⟨⟨hr, hr'⟩, ⟨hs, -⟩, hs'⟩
    exact ⟨hr, hr', hs, hs'⟩

theorem IsLowPair.s_lt (h : IsLowPair r s) : s < order := by
  have hodd := order_odd
  have hs := h.s_le
  omega

/-- The negative of what is above one half is below. -/
theorem lower_bounds (hpos : 0 < s) (hlt : s < order) :
    0 < lower s ∧ lower s ≤ order / 2 := by
  have hodd := order_odd
  rw [lower]
  by_cases hs : isLow s = true
  · rw [if_pos hs]
    exact ⟨hpos, isLow_iff.mp hs⟩
  · rw [if_neg hs]
    have hhigh := Nat.lt_of_not_le fun hle => hs (isLow_iff.mpr hle)
    omega

/-- The signature made of two residues, if neither of them is zero. -/
def pairOf? (r s : Nat) : Option (Nat × Nat) :=
  if r = 0 ∨ s = 0 then none else some (r, lower s)

/-- Signing ends in a pair of residues, if there is a nonce and its multiple of the
generator is a point of the plane. -/
theorem sign?_eq : @sign? = fun secret digest =>
    (nonce? secret digest).bind fun k => (Point.mul k generator).affine?.bind fun p =>
      pairOf? (p.1 % order)
        (Modular.mul order (Modular.inv order k)
          (digest.toNat + p.1 % order * secret)) := by
  delta sign?
  funext secret digest
  -- neither the nonce nor the multiple of the generator is to be computed
  generalize nonce? secret digest = found
  cases found with
  | none => rfl
  | some k =>
    dsimp only [Option.bind_some]
    generalize (Point.mul k generator).affine? = found
    cases found with
    | none => rfl
    | some p => rfl

theorem isLowPair_of_pairOf? {x y : Nat} (hx : x < order) (hy : y < order)
    (h : pairOf? x y = some (r, s)) : IsLowPair r s := by
  unfold pairOf? at h
  split at h
  · cases h
  · next hzero =>
    obtain ⟨hx', hy'⟩ := not_or.mp hzero
    obtain ⟨rfl, rfl⟩ := Prod.mk.inj (Option.some.inj h)
    have hbounds := lower_bounds (Nat.pos_of_ne_zero hy') hy
    exact ⟨Nat.pos_of_ne_zero hx', hx, hbounds.1, hbounds.2⟩

/-- Signatures are made of the lesser number. -/
theorem isLowPair_of_sign? {secret : Nat} {digest : FixedBytes 32}
    (h : sign? secret digest = some (r, s)) : IsLowPair r s := by
  have hmod : ∀ n, n % order < order := fun n => Nat.mod_lt n (by decide)
  rw [sign?_eq] at h
  obtain ⟨k, -, hk⟩ := Option.bind_eq_some_iff.mp h
  obtain ⟨p, -, hp⟩ := Option.bind_eq_some_iff.mp hk
  exact isLowPair_of_pairOf? (hmod _) (hmod _) hp

/-- Of a number and its negative one only is the lesser. -/
theorem IsLowPair.eq_of_sameUpToSign (h : IsLowPair r s) (h' : IsLowPair r' s')
    (hsame : SameUpToSign s s') : s = s' := by
  have hodd := order_odd
  rcases hsame with hsame | hopposite
  · exact Nat.ModEq.eq_of_lt_of_lt hsame h.s_lt h'.s_lt
  · -- the sum of the two is above zero and below the order
    have hsum : s + s' < order := by
      have hs := h.s_le
      have hs' := h'.s_le
      omega
    have hpos := h.s_pos
    have hzero : s + s' = 0 := Nat.ModEq.eq_of_lt_of_lt hopposite hsum (by omega)
    omega

end Ecdsa

open Ecdsa

/-! ## Signatures -/

namespace PublicKey

variable {key : PublicKey} {message signature : Bytes} {r s : Nat}

theorem signaturePair?_eq_some :
    signaturePair? signature = some (r, s) ↔
    Der.Spells r s signature ∧ IsLowPair r s := by
  rw [← Der.decode?_eq_some, isLowPair_iff, signaturePair?]
  constructor
  · intro h
    split at h
    · cases h
    · next r' s' hpair =>
      split at h
      · next hlow =>
        cases h
        simp only [Bool.and_eq_true] at hlow
        exact ⟨hpair, hlow.1.1, hlow.1.2, hlow.2⟩
      · cases h
  · rintro ⟨hpair, hr, hs, hlow⟩
    rw [hpair]
    simp only
    rw [hr, hs, hlow]
    rfl

/-- A key of the curve accepts nothing that is read as no pair. -/
theorem accepts_secp256k1 (hkey : key.keyType = .secp256k1) (message signature : Bytes) :
    key.accepts message signature =
      ((signaturePair? signature).bind fun p =>
        (Secp256k1.decompress? key.toBytes).map fun point =>
          Ecdsa.verify point (Hash.sha512Half message) p.1 p.2).getD false := by
  delta accepts
  generalize signaturePair? signature = pair?
  generalize Secp256k1.decompress? key.toBytes = point?
  rw [hkey]
  cases pair? with
  | none => cases point? <;> rfl
  | some p => cases point? <;> rfl

/-- What a key of the curve accepts is the strict form of a pair with the
lesser number. -/
theorem verify_inv (hkey : key.keyType = .secp256k1)
    (h : key.verify message signature = .ok ()) :
    ∃ r s, Der.Spells r s signature ∧ IsLowPair r s := by
  have haccepted : key.accepts message signature = true := by
    unfold verify at h
    split at h
    · next haccepted => exact haccepted
    · cases h
  rw [accepts_secp256k1 hkey] at haccepted
  cases hpair : signaturePair? signature with
  | none =>
    rw [hpair] at haccepted
    cases haccepted
  | some p => exact ⟨p.1, p.2, signaturePair?_eq_some.mp hpair⟩

end PublicKey

/-- A secret of the curve writes the pair that it makes. -/
theorem KeyPair.sign_secp256k1 {pair : KeyPair} (hpair : pair.keyType = .secp256k1)
    (message : Bytes) :
    pair.sign message =
      match Ecdsa.sign? pair.secret.toNat (Hash.sha512Half message) with
      | some p => .ok (Der.encode p.1 p.2)
      | none => .error .invalidSignature := by
  delta sign
  generalize Ecdsa.sign? pair.secret.toNat (Hash.sha512Half message) = found
  rw [hpair]
  cases found with
  | none => rfl
  | some p => rfl

/-- What a secret of the curve makes is the strict form of a pair with the
lesser number. -/
theorem KeyPair.sign_inv {pair : KeyPair} {message signature : Bytes}
    (hpair : pair.keyType = .secp256k1) (h : pair.sign message = .ok signature) :
    ∃ r s, Der.Spells r s signature ∧ IsLowPair r s := by
  rw [sign_secp256k1 hpair] at h
  cases hsign : Ecdsa.sign? pair.secret.toNat (Hash.sha512Half message) with
  | none =>
    rw [hsign] at h
    cases h
  | some p =>
    rw [hsign] at h
    cases h
    have hlow := isLowPair_of_sign? hsign
    have hr := Nat.lt_trans hlow.r_lt order_lt
    have hs := Nat.lt_trans hlow.s_lt order_lt
    exact ⟨p.1, p.2, Der.spells_encode hr hs, hlow⟩

namespace Ecdsa

open Secp256k1 (order Point generator)

/-- Whatever a secp256k1 key pair signs, the signature is the strict form of a pair of
scalars other than zero, the second of which is at most one half of the order. What a
secp256k1 key accepts is such a form too. If the key accepts two signatures of a message,
and these are the forms of pairs with one `r` and with the same `s` or its negative, then
they are one signature. -/
theorem signature_unique :
    (∀ (pair : KeyPair) (message signature : Bytes), pair.keyType = .secp256k1 →
      pair.sign message = .ok signature →
        ∃ r s, Der.Spells r s signature ∧ IsLowPair r s) ∧
    ∀ (key : PublicKey) (message signature signature' : Bytes), key.keyType = .secp256k1 →
      key.verify message signature = .ok () → key.verify message signature' = .ok () →
      (∃ r s, Der.Spells r s signature ∧ IsLowPair r s) ∧
      ∀ r s s', Der.Spells r s signature → Der.Spells r s' signature' →
      SameUpToSign s s' →
        signature = signature' := by
  refine ⟨fun pair message signature hpair hsign => pair.sign_inv hpair hsign, ?_⟩
  intro key message signature signature' hkey haccepted haccepted'
  have hform := PublicKey.verify_inv hkey haccepted
  refine ⟨hform, fun r s s' hspells hspells' hsame => ?_⟩
  obtain ⟨r₁, s₁, hspells₁, hlow⟩ := hform
  obtain ⟨r₂, s₂, hspells₂, hlow'⟩ := PublicKey.verify_inv hkey haccepted'
  -- the pairs that were read are those that the forms denote
  obtain ⟨rfl, rfl⟩ := hspells₁.eq_of_eq hspells
  obtain ⟨rfl, rfl⟩ := hspells₂.eq_of_eq hspells'
  obtain rfl := hlow.eq_of_sameUpToSign hlow' hsame
  exact hspells.unique hspells'

/-- The public key of the secret one, which is the generator. -/
def generatorKey : PublicKey where
  raw := ⟨[0x02, 0x79, 0xBE, 0x66, 0x7E, 0xF9, 0xDC, 0xBB,
    0xAC, 0x55, 0xA0, 0x62, 0x95, 0xCE, 0x87, 0x0B,
    0x07, 0x02, 0x9B, 0xFC, 0xDB, 0x2D, 0xCE, 0x28,
    0xD9, 0x59, 0xF2, 0x81, 0x5B, 0x16, 0xF8,
    0x17, 0x98], rfl⟩
  isAccepted_raw := by decide +kernel

/-- The key pair of the secret one. -/
def generatorPair : KeyPair :=
  ⟨.secp256k1, FixedBytes.ofNat 32 1, generatorKey, generatorKey⟩

/-- A message. -/
def shortMessage : Bytes := [1, 2, 3]

/-- The signature of the message that the secret one makes. -/
def shortSignature : Bytes :=
  [0x30, 0x44, 0x02, 0x20, 0x20, 0x46, 0x82, 0x1B,
   0x54, 0x52, 0x75, 0x2A, 0x00, 0x60, 0xFC, 0x04,
   0xB9, 0x42, 0xB4, 0xC1, 0xA1, 0x1F, 0xAF, 0x36,
   0x90, 0x48, 0xC4, 0xB0, 0x88, 0x58, 0x54, 0xBB,
   0x7F, 0x3B, 0xCF, 0x32, 0x02, 0x20, 0x4F, 0x4F,
   0x30, 0x77, 0x6A, 0xB0, 0x54, 0x98, 0x80, 0xDA,
   0x67, 0x7B, 0x5E, 0xB3, 0xB8, 0x9C, 0xC3, 0x54,
   0x7B, 0x6F, 0x6F, 0xB8, 0x6C, 0xDF, 0xC7, 0x6E,
   0xA9, 0xC4, 0xFD, 0xA8, 0x06, 0x44]

/-- The digest of the message. -/
def shortDigest : FixedBytes 32 :=
  FixedBytes.ofNat 32 0x27864CC5219A951A7A6E52B8C8DDDF6981D098DA1658D96258C870B2C88DFBCB

/-- The nonce generator after the key and the digest were mixed in once. -/
def shortState : Generator where
  key := Bytes.ofNat 32 0x69AD706EC3913B19E594F82BE7D4EF0DD85FBD4A9AA55856C3062E5E755E9E42
  value :=
    Bytes.ofNat 32 0x2A4699A0F32DC99327C32444BC0828CA28B88C659BC4DE58804449E49A786CA9

/-- The nonce generator after the key and the digest were mixed in twice. -/
def shortStart : Generator where
  key := Bytes.ofNat 32 0x58B7929CB53C28F877C3E198FF4BCC57B818898C0420A793158F9C56C5C1F3FA
  value :=
    Bytes.ofNat 32 0xC4ABB5663F1C53373044E6E3AD73D0805D837B337EABF5E08DFC77DA448B4BB2

/-- The nonce of the message. -/
def shortNonce : Nat := 0x4CF075608A4DFEFB41BC0098EF2FFAD8804DCCB06DCF11DB532853F8592BBCD2

theorem Generator.mix_eq {g : Generator} {data key value : Bytes}
    (hkey : Hash.hmacSha256 g.key (g.value ++ data) = key)
    (hvalue : Hash.hmacSha256 key g.value = value) : g.mix data = ⟨key, value⟩ := by
  rw [mix, step, hkey, hvalue]

theorem Generator.nonce?_of_isScalar {g : Generator} {k : Nat} (tries : Nat)
    (hvalue : Bytes.toNat (Hash.hmacSha256 g.key g.value) = k) (hk : isScalar k = true) :
    g.nonce? (tries + 1) = some k := by
  rw [nonce?, step]
  dsimp only
  rw [hvalue, if_pos hk]

/-- The mixing is evaluated hash by hash, since the hashes in one take too much room. -/
theorem nonce?_shortDigest : Ecdsa.nonce? 1 shortDigest = some shortNonce := by
  have hstate : Generator.mix ⟨List.replicate 32 0, List.replicate 32 1⟩
      (0 :: (Bytes.ofNat 32 1 ++ shortDigest.toList)) = shortState :=
    Generator.mix_eq (by decide +kernel) (by decide +kernel)
  have hstart : shortState.mix (1 :: (Bytes.ofNat 32 1 ++ shortDigest.toList)) =
      shortStart :=
    Generator.mix_eq (by decide +kernel) (by decide +kernel)
  have hvalue : Bytes.toNat (Hash.hmacSha256 shortStart.key shortStart.value) =
      shortNonce := by
    decide +kernel
  rw [Ecdsa.nonce?, Generator.start, hstate, hstart]
  exact Generator.nonce?_of_isScalar 999 hvalue (by decide)

theorem sign?_shortDigest : Ecdsa.sign? 1 shortDigest =
    some (0x2046821B5452752A0060FC04B942B4C1A11FAF369048C4B0885854BB7F3BCF32,
      0x4F4F30776AB0549880DA677B5EB3B89CC3547B6F6FB86CDFC76EA9C4FDA80644) := by
  have hpair : ((Point.mul shortNonce generator).affine?.bind fun p =>
      pairOf? (p.1 % order) (Modular.mul order (Modular.inv order shortNonce)
        (shortDigest.toNat + p.1 % order * 1))) =
      some (0x2046821B5452752A0060FC04B942B4C1A11FAF369048C4B0885854BB7F3BCF32,
        0x4F4F30776AB0549880DA677B5EB3B89CC3547B6F6FB86CDFC76EA9C4FDA80644) := by
    decide +kernel
  rw [sign?_eq]
  beta_reduce
  rw [nonce?_shortDigest, Option.bind_some, hpair]

theorem sign_shortMessage : generatorPair.sign shortMessage = .ok shortSignature := by
  have hdigest : Hash.sha512Half shortMessage = shortDigest := by decide +kernel
  have hsecret : generatorPair.secret.toNat = 1 := by decide +kernel
  have hform : Der.encode
      0x2046821B5452752A0060FC04B942B4C1A11FAF369048C4B0885854BB7F3BCF32
      0x4F4F30776AB0549880DA677B5EB3B89CC3547B6F6FB86CDFC76EA9C4FDA80644 =
      shortSignature := by
    decide +kernel
  rw [KeyPair.sign_secp256k1 rfl, hdigest, hsecret, sign?_shortDigest, ← hform]

/-- A signature is accepted, and the form of the pair with the negative number is not. -/
theorem signature_unique_generator :
    generatorPair.sign shortMessage = .ok shortSignature ∧
      generatorKey.verify shortMessage shortSignature = .ok () ∧
      ∃ r s, Der.Spells r s shortSignature ∧ IsLowPair r s ∧
        generatorKey.verify shortMessage (Der.encode r (order - s)) ≠ .ok () := by
  have hverify : generatorKey.verify shortMessage shortSignature = .ok () := by
    decide +kernel
  obtain ⟨hmade, haccepted⟩ := signature_unique
  obtain ⟨r, s, hspells, hlow⟩ := hmade generatorPair _ _ rfl sign_shortMessage
  refine ⟨sign_shortMessage, hverify, r, s, hspells, hlow, fun hother => ?_⟩
  have hodd := order_odd
  have hpos := hlow.s_pos
  have hlt := hlow.s_lt
  have hnegative : Der.Spells r (order - s) (Der.encode r (order - s)) :=
    Der.spells_encode (Nat.lt_trans hlow.r_lt order_lt)
      (Nat.lt_of_le_of_lt (Nat.sub_le _ _) order_lt)
  have hsame : SameUpToSign s (order - s) := by
    refine .inr ?_
    rw [Nat.add_sub_cancel' (Nat.le_of_lt hlt)]
    exact Nat.modEq_zero_iff_dvd.mpr (dvd_refl order)
  have heq :=
    (haccepted generatorKey _ _ _ rfl hverify hother).2 r s _ hspells hnegative hsame
  rw [← heq] at hnegative
  -- the order is odd, so no number is its own negative
  obtain ⟨-, hself⟩ := hspells.eq_of_eq hnegative
  omega

end Ecdsa

end XrpLedger
