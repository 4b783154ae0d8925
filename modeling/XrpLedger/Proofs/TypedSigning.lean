import XrpLedger.Proofs.SignatureCoverage
import XrpLedger.Proofs.TypedTrees

/-!
# Signing typed transactions

A signed typed transaction is verified, and it is read back as the transaction. All that
is asked of the signature scheme is that it accepts the signature it made.

- `Signing.sign_eq_ok`: the signed form of an object that names no signer yet.
- `Signing.verify_eq_ok`: the signed forms that are verified.
- `Transaction.sign_verified`: the way of a typed transaction from its fields to its
  signed form and back.
-/

namespace XrpLedger

/-! ## Keys -/

/-- The public key accepts with `verify` the signature of the message that `sign` makes
with the secret. -/
def KeyPair.AcceptsOwn (pair : KeyPair) (message : Bytes) : Prop :=
  ∀ signature, pair.sign message = .ok signature →
    pair.publicKey.verify message signature = .ok ()

instance decidableForallOk {α : Type} (r : Except CodecError α) (P : α → Prop)
    [DecidablePred P] :
    Decidable (∀ a, r = .ok a → P a) :=
  match r with
  | .ok a => decidable_of_iff (P a) (by simp)
  | .error _ => isTrue (by simp)

instance (pair : KeyPair) (message : Bytes) : Decidable (pair.AcceptsOwn message) :=
  inferInstanceAs (Decidable (∀ _, _ → _))

/-! ## Signed objects -/

namespace Object

variable {o : Object} {id : FieldId} {v : Value}

/-- A field that is there and has the right view is read by `require`. -/
theorem require_eq_ok {α : Type} (view : Value → Option α) {a : α}
    (h : get? o id = some v) (hview : view v = some a) : require o id view = .ok a := by
  rw [require, getAs, h]
  simp only
  rw [hview]

/-- A field that is not kept by `filter` does not matter, so it may be set by `insert`. -/
theorem filter_insert {keep : FieldId × Value → Bool} (hid : ∀ w, keep (id, w) = false)
    (o : Object) :
    (insert id v o).filter keep = o.filter keep := by
  -- on the fields, up to the place where the new one is set
  induction o with
  | nil => simp [insert, hid]
  | cons field rest ih =>
    obtain ⟨i, w⟩ := field
    rw [insert]
    split
    · simp [hid]
    · split
      · next hi =>
        subst hi
        simp [hid]
      · rw [List.filter_cons, List.filter_cons, ih]

end Object

namespace Signing

variable {o : Object} {pair : KeyPair} {s : SignedTransaction}

/-- The object with the public key of its signer. -/
def signedBy (o : Object) (key : PublicKey) : Object :=
  Object.insert Field.signingPubKey (blobValue key.toBytes) o

/-- The object with a signature. -/
def withSignature (o : Object) (signature : Bytes) : Object :=
  Object.insert Field.txnSignature (blobValue signature) o

/-- A signature set by `withSignature` is not among what `signingData` covers. -/
theorem signingData_withSignature (o : Object) (signature : Bytes) :
    signingData (withSignature o signature) = signingData o := by
  have hkeep : ∀ w : Value, FieldId.isSigningField (Field.txnSignature, w).1 = false :=
    fun _ => show Field.txnSignature.isSigningField = false by decide
  rw [signingData, signingData, Object.encodeSigning, Object.encodeSigning, withSignature,
    Object.signingPart, Object.filter_insert hkeep]
  rfl

/-- The fields of an object that is signed. -/
theorem get?_signed (o : Object) (key : PublicKey) (signature : Bytes) (id : FieldId) :
    Object.get? (withSignature (signedBy o key) signature) id =
      if Field.txnSignature = id then some (blobValue signature)
      else if Field.signingPubKey = id then some (blobValue key.toBytes)
        else Object.get? o id := by
  rw [withSignature, Object.get?_insert, signedBy, Object.get?_insert]

/-- An object that is `Canonical` is so when it is signed. -/
theorem canonical_signed (ho : Object.Canonical o) (key : PublicKey) (signature : Bytes) :
    Object.Canonical (withSignature (signedBy o key) signature) := by
  have hblob : ∀ bs, (blobValue bs).Canonical :=
    fun bs => Value.canonical_scalar trivial (by simp)
  exact (ho.insert (by decide) (hblob _)).insert (by decide) (hblob _)

/-- An object that names no signer and has no signature is signed by `sign` as it is, with
both fields set. -/
theorem sign_eq_ok (hkey : Object.get? o Field.signingPubKey = none)
    (hsignature : Object.get? o Field.txnSignature = none) :
    sign o pair = .ok s ↔
      ∃ data signature, signingData (signedBy o pair.publicKey) = .ok data ∧
        pair.sign data = .ok signature ∧
        Object.encode (withSignature (signedBy o pair.publicKey) signature) = .ok s.blob ∧
        s.hash = transactionHash s.blob := by
  -- no other signer is named, so the key is set
  have hsigner : withSigner o pair.publicKey = .ok (signedBy o pair.publicKey) := by
    rw [withSigner, Object.getAs, hkey]
    rfl
  have hunsigned : Object.erase Field.txnSignature (signedBy o pair.publicKey) =
      signedBy o pair.publicKey := by
    refine Object.erase_of_get?_eq_none ?_
    rw [signedBy, Object.get?_insert, if_neg (by decide), hsignature]
  unfold sign
  rw [hsigner]
  simp only
  rw [hunsigned]
  -- from here on each step of the signer has an outcome of its own
  constructor
  · intro h
    split at h
    · cases h
    · next data hdata =>
      split at h
      · cases h
      · next signature hsign =>
        split at h
        · cases h
        · next blob hencode =>
          cases h
          exact ⟨data, signature, hdata, hsign, hencode, rfl⟩
  · rintro ⟨data, signature, hdata, hsign, hencode, hhash⟩
    unfold withSignature at hencode
    rw [hdata]
    simp only
    rw [hsign]
    simp only
    rw [hencode]
    simp only
    rw [← hhash]

/-- A signed form is verified by `verify` if the key that it names accepts
its signature. -/
theorem verify_eq_ok {bs data signature : Bytes} {key : PublicKey}
    (hdecode : Object.decode bs = .ok o)
    (hkey : Object.get? o Field.signingPubKey = some (blobValue key.toBytes))
    (hsignature : Object.get? o Field.txnSignature = some (blobValue signature))
    (hdata : signingData o = .ok data) (haccepted : key.verify data signature = .ok ()) :
    verify bs = .ok o := by
  rw [verify, hdecode]
  simp only
  rw [Object.require_eq_ok Value.blob? hkey rfl]
  simp only
  rw [PublicKey.ofBytes_eq_ok.mpr rfl]
  simp only
  rw [Object.require_eq_ok Value.blob? hsignature rfl]
  simp only
  rw [hdata]
  simp only
  rw [haccepted]

/-- What `verify` accepts is what `Object.decode` reads. -/
theorem decode_of_verify {bs : Bytes} (h : verify bs = .ok o) :
    Object.decode bs = .ok o := by
  unfold verify at h
  -- of all outcomes only the last is a transaction, and it is the one that was read
  repeat' split at h
  all_goals cases h
  assumption

end Signing

/-! ## Signed typed transactions -/

namespace Transaction

open Signing

/-- The octets that a signature of the transaction under the keys covers. -/
def coveredBy (tx : Transaction) (pair : KeyPair) : Except CodecError Bytes :=
  signingData (signedBy tx.toObject pair.publicKey)

/-- The `entries` of a transaction are still in its field tree when it is signed. -/
theorem get?_signed_toObject (tx : Transaction) (key : PublicKey) (signature : Bytes) :
    ∀ entry ∈ tx.entries,
      Object.get? (withSignature (signedBy tx.toObject key) signature) entry.1 =
      entry.2 := by
  intro entry hentry
  obtain ⟨-, hkey, hsignature, -⟩ := tx.entries_fields
  have hne : Field.txnSignature ≠ entry.1 := by
    intro h
    exact hsignature (List.mem_map.mpr ⟨entry, hentry, h.symm⟩)
  have hne' : Field.signingPubKey ≠ entry.1 := by
    intro h
    exact hkey (List.mem_map.mpr ⟨entry, hentry, h.symm⟩)
  rw [get?_signed, if_neg hne, if_neg hne', tx.madeOf_entries.get?_eq entry hentry]

/-- The field tree of a transaction is built by `lower`. If `sign` signs the transaction,
with keys that accept the signature they make of it, its signed form is verified by
`verify`. The tree that is read from it is the field tree with the signer's key and a
signature, which it did not have before, and it is read by `ofObject` as the transaction.
The identifier is the hash of the signed form. -/
theorem sign_verified {tx : Transaction} {pair : KeyPair} (hnormal : tx.IsNormal)
    (haccepts : ∀ message, tx.coveredBy pair = .ok message → pair.AcceptsOwn message) :
    ∃ o, tx.lower = .ok o ∧ Object.get? o Field.signingPubKey = none ∧
      Object.get? o Field.txnSignature = none ∧
      ∀ s, tx.sign pair = .ok s →
      ∃ t signature, verify s.blob = .ok t ∧ ofObject t = .ok tx ∧
        t = withSignature (signedBy o pair.publicKey) signature ∧
          s.hash = transactionHash s.blob := by
  obtain ⟨-, hkey, hsignature, -⟩ := tx.entries_fields
  have hkey := tx.madeOf_entries.get?_eq_none hkey
  have hsignature := tx.madeOf_entries.get?_eq_none hsignature
  refine ⟨tx.toObject, tx.lower_eq_ok, hkey, hsignature, fun s hs => ?_⟩
  have hsigned : Signing.sign tx.toObject pair = .ok s := by
    rw [sign, tx.lower_eq_ok] at hs
    exact hs
  obtain ⟨data, signature, hdata, hsign, hencode, hhash⟩ :=
    (sign_eq_ok hkey hsignature).mp hsigned
  -- the signed form is read back as the tree that it was written from
  have hdecode : Object.decode s.blob =
      .ok (withSignature (signedBy tx.toObject pair.publicKey) signature) :=
    (canonical_signed (canonical_toObject hnormal) pair.publicKey signature).decode_encode
    hencode
  refine ⟨_, signature, ?_, ofObject_eq_ok
    (tx.get?_signed_toObject pair.publicKey signature),
    rfl, hhash⟩
  refine verify_eq_ok hdecode ?_ ?_ ?_ (haccepts data hdata signature hsign)
  · rw [get?_signed, if_neg (by decide), if_pos rfl]
  · rw [get?_signed, if_pos rfl]
  · -- the verifier's octets are the signer's, who had no signature yet
    rw [signingData_withSignature]
    exact hdata

theorem twelve_le_maxCount : 12 ≤ Drops.maxCount := by decide

/-- A trust line with an option and a note. -/
def noted : Transaction :=
  { make ⟨⟨List.replicate 20 2, rfl⟩⟩ ⟨12, twelve_le_maxCount⟩ 1
      (.trustSet .one (some 5) none) with
    sourceTag := some 7
    memos := [⟨none, some [0xAB], none⟩] }

/-- The transaction `noted` is signed, verified and read back with the keys of a seed of
zeros. -/
theorem sign_verified_noted :
    ∃ pair s t, KeyPair.ofSeed ⟨.ed25519, ⟨List.replicate 16 0, rfl⟩⟩ = .ok pair ∧
      noted.sign pair = .ok s ∧ verify s.blob = .ok t ∧ ofObject t = .ok noted := by
  have hnormal : noted.IsNormal := by
    unfold IsNormal
    decide
  have haccepts : ∀ message,
      noted.coveredBy (KeyPair.deriveEd25519 (List.replicate 16 0)) = .ok message →
        (KeyPair.deriveEd25519 (List.replicate 16 0)).AcceptsOwn message := by
    decide +kernel
  have hsigned : (noted.sign (KeyPair.deriveEd25519 (List.replicate 16 0))).isOk =
      true := by
    decide +kernel
  obtain ⟨o, -, -, -, hverified⟩ := sign_verified hnormal haccepts
  cases hs : noted.sign (KeyPair.deriveEd25519 (List.replicate 16 0)) with
  | error e =>
    rw [hs] at hsigned
    cases hsigned
  | ok s =>
    obtain ⟨t, -, hverify, hread, -⟩ := hverified s hs
    exact ⟨_, s, t, rfl, hs, hverify, hread⟩

end Transaction

end XrpLedger
