import XrpLedger.Bytes.Lemmas
import XrpLedger.Key.KeyPair

/-!
# Derivation of scalars

A scalar is derived from a byte string by hashing it with one counter after the other
behind it, until the hash is a scalar. With SHA-512 the first counter fits nearly always,
so nothing about the others shows in practice; what is said here holds of any hash.

- `counterMessage`, `candidate`: what is hashed for a counter, octet by octet, and what
  comes of it.
- `OutOfRange`, `IsFirstFit`: the candidates that are refused, and the first one that is
  not.
- `FirstFrom`, `firstScalar_eq_some`, `firstScalar_eq_none`: what the search comes to from
  any counter on.
- `deriveScalar_outcome`: the derived scalar is the first that fits, and there is none
  only if all counters of 32 bits are refused.
- `KeyPair.ofSeed_secp256k1`: the keys of a seed, by two scalars that are derived so.
-/

namespace XrpLedger

open Ecdsa (isScalar isScalar_iff)
open Secp256k1 (order)

/-! ## Messages -/

/-- The octets of a 32-bit word, the most significant one first. -/
def Bytes.ofUInt32 (w : UInt32) : Bytes :=
  [(w >>> 24).toUInt8, (w >>> 16).toUInt8, (w >>> 8).toUInt8, w.toUInt8]

/-- The octets `Bytes.ofUInt32` of a word are the `Bytes.ofNat` of its number. -/
theorem Bytes.ofNat_toNat_uint32 (w : UInt32) :
    Bytes.ofNat 4 w.toNat = Bytes.ofUInt32 w := by
  have h24 : (24 : UInt32).toNat % 32 = 24 := rfl
  have h16 : (16 : UInt32).toNat % 32 = 16 := rfl
  have h8 : (8 : UInt32).toNat % 32 = 8 := rfl
  simp only [ofNat, ofUInt32, List.nil_append, List.cons_append,
    List.cons.injEq, and_true, ← UInt8.toNat_inj, UInt8.toNat_ofNat',
    UInt32.toNat_toUInt8, UInt32.toNat_shiftRight,
    Nat.shiftRight_eq_div_pow, h24, h16, h8]
  omega

/-- What is hashed for a counter. -/
def counterMessage (front : Bytes) :
    (discriminator : Option UInt32) → (counter : UInt32) → Bytes
  | none, counter => front ++ Bytes.ofUInt32 counter
  | some d, counter => front ++ Bytes.ofUInt32 d ++ Bytes.ofUInt32 counter

/-- The number that is tried for a counter, which the octets of the hash spell. -/
def candidate (hash : Bytes → FixedBytes 32) (front : Bytes)
    (discriminator : Option UInt32) (counter : UInt32) : Nat :=
  (hash (counterMessage front discriminator counter)).toNat

/-- What `scalarInput` makes of a counter is its `counterMessage`. -/
theorem scalarInput_toNat (front : Bytes) (discriminator : Option UInt32)
    (counter : UInt32) :
    scalarInput front discriminator counter.toNat =
    counterMessage front discriminator counter := by
  rw [scalarInput, Bytes.ofNat_toNat_uint32]
  cases discriminator with
  | none => rfl
  | some d =>
    rw [counterMessage, List.append_assoc, ← Bytes.ofNat_toNat_uint32 d]
    rfl

/-! ## Candidates -/

/-- A candidate that is refused. -/
def OutOfRange (n : Nat) : Prop :=
  n = 0 ∨ order ≤ n

/-- A number is the first candidate in range. -/
def IsFirstFit (candidate : UInt32 → Nat) (k : Nat) : Prop :=
  ∃ counter, k = candidate counter ∧ 0 < k ∧ k < order ∧
    ∀ c < counter, OutOfRange (candidate c)

/-- A candidate is `OutOfRange` exactly if it is no scalar. -/
theorem outOfRange_iff {n : Nat} : OutOfRange n ↔ ¬ isScalar n = true := by
  rw [isScalar_iff, OutOfRange]
  omega

/-! ## The search -/

variable {f : Nat → Nat} {start tries c k : Nat}

/-- From `start` on, `c` is the first counter whose candidate is a scalar. -/
structure FirstFrom (f : Nat → Nat) (start c : Nat) : Prop where
  le : start ≤ c
  fits : isScalar (f c) = true
  least : ∀ b, start ≤ b → b < c → OutOfRange (f b)

/-- A counter that fits ends the search: it is `FirstFrom` itself on. -/
theorem firstFrom_of_fits (h : isScalar (f start) = true) :
    FirstFrom f start c ↔ c = start := by
  constructor
  · intro hc
    by_contra hne
    have hlt : start < c := Nat.lt_of_le_of_ne hc.le (Ne.symm hne)
    exact outOfRange_iff.mp (hc.least start (Nat.le_refl start) hlt) h
  · rintro rfl
    exact ⟨Nat.le_refl c, h, fun b hle hlt => absurd hlt (Nat.not_lt.mpr hle)⟩

/-- A counter that does not fit leaves the search to the counters above it. -/
theorem firstFrom_of_outOfRange (h : OutOfRange (f start)) :
    FirstFrom f start c ↔ FirstFrom f (start + 1) c := by
  constructor
  · rintro ⟨hle, hfits, hleast⟩
    have hne : c ≠ start := by
      rintro rfl
      exact outOfRange_iff.mp h hfits
    exact ⟨by omega, hfits, fun b hb hlt => hleast b (by omega) hlt⟩
  · rintro ⟨hle, hfits, hleast⟩
    refine ⟨by omega, hfits, fun b hb hlt => ?_⟩
    rcases Nat.eq_or_lt_of_le hb with rfl | hb
    · exact h
    · exact hleast b hb hlt

theorem firstScalar_of_fits (h : isScalar (f start) = true) :
    firstScalar f (tries + 1) start = some (f start) :=
  if_pos h

theorem firstScalar_of_outOfRange (h : OutOfRange (f start)) :
    firstScalar f (tries + 1) start = firstScalar f tries (start + 1) :=
  if_neg (outOfRange_iff.mp h)

/-- The search `firstScalar` ends at the first counter that fits, by `FirstFrom`, if this
is among those that are tried. -/
theorem firstScalar_eq_some :
    firstScalar f tries start = some k ↔
    ∃ c < start + tries, FirstFrom f start c ∧ k = f c := by
  -- one counter is looked at, and the rest is the search from the next one on
  induction tries generalizing start with
  | zero =>
    refine iff_of_false nofun ?_
    rintro ⟨c, hlt, hc, -⟩
    exact absurd hc.le (Nat.not_le.mpr hlt)
  | succ tries ih =>
    by_cases h : isScalar (f start) = true
    · rw [firstScalar_of_fits h, Option.some.injEq]
      constructor
      · rintro rfl
        exact ⟨start, by omega, (firstFrom_of_fits h).mpr rfl, rfl⟩
      · rintro ⟨c, -, hc, rfl⟩
        rw [(firstFrom_of_fits h).mp hc]
    · have hout := outOfRange_iff.mpr h
      rw [firstScalar_of_outOfRange hout, ih, Nat.add_right_comm, Nat.add_assoc]
      simp only [firstFrom_of_outOfRange hout]

/-- The search `firstScalar` fails exactly if all counters that are tried are
`OutOfRange`. -/
theorem firstScalar_eq_none :
    firstScalar f tries start = none ↔
    ∀ c, start ≤ c → c < start + tries → OutOfRange (f c) := by
  induction tries generalizing start with
  | zero => exact iff_of_true rfl fun c hle hlt => absurd hle (Nat.not_le.mpr hlt)
  | succ tries ih =>
    -- the counter in front fits and ends the search, or the search goes on without it
    by_cases h : isScalar (f start) = true
    · rw [firstScalar_of_fits h]
      refine iff_of_false nofun fun hall => ?_
      exact outOfRange_iff.mp (hall start (Nat.le_refl start) (by omega)) h
    · have hout := outOfRange_iff.mpr h
      rw [firstScalar_of_outOfRange hout, ih]
      constructor
      · intro hall c hle hlt
        rcases Nat.eq_or_lt_of_le hle with rfl | hle
        · exact hout
        · exact hall c hle (by omega)
      · intro hall c hle hlt
        exact hall c (by omega) (by omega)

/-! ## The search through all counters -/

variable {g : UInt32 → Nat}

/-- The numbers below `2 ^ 32` are the words of 32 bits. -/
theorem exists_toNat_eq (hlt : c < UInt32.size) : ∃ w : UInt32, w.toNat = c :=
  ⟨.ofNatLT c hlt, UInt32.toNat_ofNatLT⟩

/-- Through all counters of 32 bits, `firstScalar` finds the number that `IsFirstFit`. -/
theorem firstScalar_size_eq_some (hg : ∀ w : UInt32, f w.toNat = g w) :
    firstScalar f UInt32.size 0 = some k ↔ IsFirstFit g k := by
  rw [firstScalar_eq_some, Nat.zero_add]
  constructor
  · rintro ⟨c, hlt, ⟨-, hfits, hleast⟩, rfl⟩
    obtain ⟨w, rfl⟩ := exists_toNat_eq hlt
    obtain ⟨hpos, hbelow⟩ := isScalar_iff.mp hfits
    refine ⟨w, hg w, hpos, hbelow, fun v hv => ?_⟩
    rw [← hg]
    exact hleast v.toNat (Nat.zero_le _) (UInt32.lt_iff_toNat_lt.mp hv)
  · rintro ⟨w, rfl, hpos, hbelow, hleast⟩
    refine ⟨w.toNat, w.toNat_lt, ⟨Nat.zero_le _, ?_, fun b _ hb => ?_⟩, (hg w).symm⟩
    · rw [hg]
      exact isScalar_iff.mpr ⟨hpos, hbelow⟩
    · obtain ⟨v, rfl⟩ := exists_toNat_eq (Nat.lt_trans hb w.toNat_lt)
      rw [hg]
      exact hleast v (UInt32.lt_iff_toNat_lt.mpr hb)

/-- Through all counters of 32 bits, `firstScalar` finds none only if all are
`OutOfRange`. -/
theorem firstScalar_size_eq_none (hg : ∀ w : UInt32, f w.toNat = g w) :
    firstScalar f UInt32.size 0 = none ↔ ∀ w, OutOfRange (g w) := by
  rw [firstScalar_eq_none, Nat.zero_add]
  constructor
  · intro hall w
    rw [← hg]
    exact hall w.toNat (Nat.zero_le _) w.toNat_lt
  · intro hall c _ hlt
    obtain ⟨w, rfl⟩ := exists_toNat_eq hlt
    rw [hg]
    exact hall w

/-! ## The derived scalar -/

variable {hash : Bytes → FixedBytes 32} {front : Bytes} {discriminator : Option UInt32}

/-- The derivation `deriveScalar` is a search through the `candidate` of all counters. -/
theorem exists_search : ∃ f : Nat → Nat,
    (∀ w : UInt32, f w.toNat = candidate hash front discriminator w) ∧
    deriveScalar hash front discriminator =
      (firstScalar f UInt32.size 0).elim (.error (.invalidSeed .noScalar)) .ok := by
  refine ⟨fun n => (hash (scalarInput front discriminator n)).toNat, fun w => ?_, ?_⟩
  · show (hash (scalarInput front discriminator w.toNat)).toNat = _
    rw [scalarInput_toNat, candidate]
  · unfold deriveScalar
    generalize firstScalar _ UInt32.size 0 = found
    cases found with
    | none => rfl
    | some n => rfl

/-- The scalar that `deriveScalar` derives `IsFirstFit`. -/
theorem deriveScalar_eq_ok :
    deriveScalar hash front discriminator = .ok k ↔
    IsFirstFit (candidate hash front discriminator) k := by
  obtain ⟨f, hf, hsearch⟩ := exists_search
  rw [hsearch, ← firstScalar_size_eq_some hf]
  cases firstScalar f UInt32.size 0 with
  | none => exact iff_of_false nofun nofun
  | some n => rw [Option.elim_some, Except.ok.injEq, Option.some.injEq]

/-- A refusal of `deriveScalar` is always the same, and all counters are `OutOfRange`
then. -/
theorem deriveScalar_eq_error {e : CodecError} :
    deriveScalar hash front discriminator = .error e ↔
      e = .invalidSeed .noScalar ∧
      ∀ counter, OutOfRange (candidate hash front discriminator counter) := by
  obtain ⟨f, hf, hsearch⟩ := exists_search
  rw [hsearch, ← firstScalar_size_eq_none hf]
  cases firstScalar f UInt32.size 0 with
  | none => rw [Option.elim_none, Except.error.injEq, eq_comm, and_iff_left rfl]
  | some n => exact iff_of_false nofun fun h => nomatch h.2

/-- A scalar that `deriveScalar` derives is the `candidate` of a 32-bit counter, lies
above zero and below the order of the group, and all lesser counters have candidates that
do not. The derivation fails only if no counter has such a candidate, and always in the
same way. -/
theorem deriveScalar_outcome (hash : Bytes → FixedBytes 32) (front : Bytes)
    (discriminator : Option UInt32) :
    (∀ k, deriveScalar hash front discriminator = .ok k ↔
      ∃ counter : UInt32, k = candidate hash front discriminator counter ∧
      0 < k ∧ k < order ∧
        ∀ c < counter, candidate hash front discriminator c = 0 ∨
          order ≤ candidate hash front discriminator c) ∧
    ∀ e, deriveScalar hash front discriminator = .error e ↔
      e = .invalidSeed .noScalar ∧ ∀ counter : UInt32,
        candidate hash front discriminator counter = 0 ∨
          order ≤ candidate hash front discriminator counter :=
  ⟨fun _ => deriveScalar_eq_ok, fun _ => deriveScalar_eq_error⟩

/-- A hash of the order itself and a hash of zero are passed over. -/
example :
    deriveScalar (fun message => match message with
      | [9, 0, 0, 0, 5, 0, 0, 0, 0] => FixedBytes.ofNat 32 order
      | [9, 0, 0, 0, 5, 0, 0, 0, 1] => FixedBytes.zero 32
      | _ => FixedBytes.ofNat 32 7) [9] (some 5) = .ok 7 := by
  decide

/-! ## The keys of a seed -/

namespace KeyPair

variable {seed : Seed} {pair : KeyPair}

/-- The secp256k1 keys of sixteen octets: those of the sum of two derived scalars, the
root, which depends on the octets, and another, which depends on the root's public key. -/
structure DerivedFrom (entropy : Bytes) (root tweak : Nat) (pair : KeyPair) : Prop where
  keyType_eq : pair.keyType = .secp256k1
  root_first : IsFirstFit (candidate Hash.sha512Half entropy none) root
  rootPublicKey_eq : publicKeyOfScalar root = .ok pair.rootPublicKey
  tweak_first : IsFirstFit (candidate Hash.sha512Half pair.rootPublicKey.toBytes (some 0))
    tweak
  secret_eq : pair.secret.toNat = (root + tweak) % order
  secret_ne_zero : pair.secret.toNat ≠ 0
  publicKey_eq : publicKeyOfScalar pair.secret.toNat = .ok pair.publicKey

theorem eq_ofNat_mod_order {secret : FixedBytes 32} {n : Nat} :
    secret = FixedBytes.ofNat 32 (n % order) ↔ secret.toNat = n % order := by
  have hpos : 0 < order := by decide
  have hfits : order < 256 ^ 32 := by decide
  exact FixedBytes.eq_ofNat_iff (Nat.lt_trans (Nat.mod_lt n hpos) hfits)

/-- The keys that `deriveSecp256k1` makes are `DerivedFrom` two scalars. -/
theorem derivedFrom_of_deriveSecp256k1 {entropy : Bytes}
    (h : deriveSecp256k1 entropy = .ok pair) :
    ∃ root tweak, DerivedFrom entropy root tweak pair := by
  unfold deriveSecp256k1 at h
  -- one step of the derivation after the other has gone well
  split at h
  · cases h
  next root hroot =>
  split at h
  · cases h
  next rootPublicKey hrootPublicKey =>
  split at h
  · cases h
  next tweak htweak =>
  dsimp only at h
  split at h
  · cases h
  next hzero =>
  split at h
  · cases h
  next publicKey hpublicKey =>
  cases h
  have hsecret :=
    eq_ofNat_mod_order.mp (Eq.refl (FixedBytes.ofNat 32 ((root + tweak) % order)))
  refine ⟨root, tweak, rfl, deriveScalar_eq_ok.mp hroot, hrootPublicKey,
    deriveScalar_eq_ok.mp htweak, hsecret, ?_, ?_⟩
  · rw [hsecret]
    exact hzero
  · rw [hsecret]
    exact hpublicKey

/-- Keys that are `DerivedFrom` two scalars are the ones that `deriveSecp256k1` makes. -/
theorem DerivedFrom.deriveSecp256k1_eq {entropy : Bytes} {root tweak : Nat}
    (h : DerivedFrom entropy root tweak pair) : deriveSecp256k1 entropy = .ok pair := by
  obtain ⟨htype, hroot, hrootPublicKey, htweak, hsum, hzero, hpublicKey⟩ := h
  obtain ⟨keyType, secret, publicKey, rootPublicKey⟩ := pair
  dsimp only at htype hrootPublicKey htweak hsum hzero hpublicKey
  subst htype
  rw [hsum] at hzero hpublicKey
  rw [eq_ofNat_mod_order.mpr hsum]
  unfold deriveSecp256k1
  simp only [deriveScalar_eq_ok.mpr hroot, hrootPublicKey,
    deriveScalar_eq_ok.mpr htweak, hpublicKey, if_neg hzero]

/-- The keys `ofSeed` of a secp256k1 seed are those that are `DerivedFrom` two scalars,
each the first one that fits. -/
theorem ofSeed_secp256k1 (hseed : seed.keyType = .secp256k1) :
    ofSeed seed = .ok pair ↔
    ∃ root tweak, DerivedFrom seed.entropy.toList root tweak pair := by
  have hderive : ofSeed seed = deriveSecp256k1 seed.entropy.toList := by
    unfold ofSeed
    rw [hseed]
  rw [hderive]
  constructor
  · exact derivedFrom_of_deriveSecp256k1
  · rintro ⟨root, tweak, h⟩
    exact h.deriveSecp256k1_eq

end KeyPair

end XrpLedger
