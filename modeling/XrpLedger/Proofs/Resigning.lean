import XrpLedger.Proofs.CanonicalOrder
import XrpLedger.Proofs.JsonSigning

/-!
# Signing again

A signature replaces the one before it, and what is signed does not depend on the one that
is replaced. So what is signed already is signed again as it is, even if it was written,
and read as another tree.

- `Signing.sign_congr`: transactions that differ in their signature only are signed alike.
- `Signing.sign_named`: the key that the signer would set may be there before.
- `Signing.sign_filled`: path sets without paths are signed as if they held an empty one.
- `Signing.sign_again`: all changes of a transaction that its signed form does not show.
-/

namespace XrpLedger

/-! ## Objects -/

namespace Object

/-- A field is set by `insert` before or after `filled`. -/
theorem filled_insert (id : FieldId) (v : Value) (o : Object) :
    filled (insert id v o) = insert id v.filled (filled o) := by
  induction o with
  | nil => rfl
  | cons field rest ih =>
    obtain ⟨i, w⟩ := field
    rw [insert, filled, insert]
    split
    · rfl
    · split
      · rfl
      · rw [filled, ih]

/-- A field is removed by `erase` before or after `filled`. -/
theorem filled_erase (id : FieldId) (o : Object) :
    filled (erase id o) = erase id (filled o) := by
  induction o with
  | nil => rfl
  | cons field rest ih =>
    obtain ⟨i, w⟩ := field
    rw [erase, filled, erase]
    split
    · rfl
    · rw [filled, ih]

end Object

namespace Signing

variable {tx tx' : Object} {pair : KeyPair} {key : PublicKey}

/-! ## What is replaced -/

/-- Transactions that differ in their signature only are signed alike by `sign`, or
refused alike. -/
theorem sign_congr (ho : Object.Ascending tx) (ho' : Object.Ascending tx')
    (h : Object.erase Field.txnSignature tx = Object.erase Field.txnSignature tx') :
    sign tx pair = sign tx' pair := by
  have hne : Field.txnSignature ≠ Field.signingPubKey := by decide
  -- the signer that is named is the same
  have hnamed : Object.get? tx Field.signingPubKey =
      Object.get? tx' Field.signingPubKey := by
    have hget := congrArg (Object.get? · Field.signingPubKey) h
    simp only [ho.get?_erase, ho'.get?_erase] at hget
    rwa [if_neg hne, if_neg hne] at hget
  have hinsert : ∀ v, Object.erase Field.txnSignature
    (Object.insert Field.signingPubKey v tx) =
      Object.erase Field.txnSignature (Object.insert Field.signingPubKey v tx') := by
    intro v
    rw [ho.erase_insert_of_ne hne, ho'.erase_insert_of_ne hne, h]
  unfold sign withSigner Object.getAs
  rw [hnamed]
  cases Object.get? tx' Field.signingPubKey with
  | none =>
    simp only
    rw [hinsert]
  | some v =>
    simp only
    cases v.blob? with
    | none => rfl
    | some named =>
      simp only
      -- both are refused unless the signer is the one of the key pair
      by_cases hkey : named = pair.publicKey.toBytes
      · rw [if_pos hkey, if_pos hkey]
        simp only
        rw [h]
      · rw [if_neg hkey, if_neg hkey]

/-- A signature set by `withSignature` does not change what `sign` does. -/
theorem sign_withSignature (ho : Object.Ascending tx) (signature : Bytes) :
    sign (withSignature tx signature) pair = sign tx pair :=
  sign_congr (Object.ascending_insert ho _ _) ho (ho.erase_insert _ _)

/-- A signature that is removed does not change what `sign` does. -/
theorem sign_erase (ho : Object.Ascending tx) :
    sign (Object.erase Field.txnSignature tx) pair = sign tx pair :=
  sign_congr (Object.ascending_erase ho _) ho (ho.erase_erase _)

/-! ## What is filled in -/

/-- A transaction that `withSigner` made has its signer's public key already. -/
theorem withSigner_of_eq_ok (h : withSigner tx key = .ok tx') :
    withSigner tx' key = .ok tx' := by
  -- a signer that is named by the right key is left as it is
  have hset : ∀ o, Object.get? o Field.signingPubKey = some (blobValue key.toBytes) →
      withSigner o key = .ok o := by
    intro o hget
    unfold withSigner Object.getAs
    rw [hget]
    show (if key.toBytes = key.toBytes then _ else _) = _
    rw [if_pos rfl]
  have hkept := h
  unfold withSigner Object.getAs at h
  cases hget : Object.get? tx Field.signingPubKey with
  | none =>
    rw [hget] at h
    cases h
    refine hset _ ?_
    rw [Object.get?_insert, if_pos rfl]
  | some v =>
    rw [hget] at h
    simp only at h
    cases hblob : v.blob? with
    | none =>
      rw [hblob] at h
      cases h
    | some named =>
      rw [hblob] at h
      simp only at h
      split at h
      · cases h
        exact hkept
      · cases h

/-- The key that `withSigner` sets may be there before. -/
theorem sign_named (h : withSigner tx pair.publicKey = .ok tx') :
    sign tx' pair = sign tx pair := by
  unfold sign
  rw [withSigner_of_eq_ok h, h]

/-- A signer's key that is missing may be set by `signedBy` before. -/
theorem sign_signedBy (h : Object.get? tx Field.signingPubKey = none) :
    sign (signedBy tx pair.publicKey) pair = sign tx pair := by
  refine sign_named ?_
  unfold withSigner Object.getAs
  rw [h]
  rfl

/-! ## What is written and read -/

theorem blob?_filled (v : Value) : v.filled.blob? = v.blob? := by
  cases v with
  | scalar s => cases s <;> rfl
  | object o => rfl
  | array es => rfl

/-- Path sets without paths are signed by `sign` as if they were `filled`. -/
theorem sign_filled (tx : Object) (pair : KeyPair) :
    sign (Object.filled tx) pair = sign tx pair := by
  have hblob : ∀ bs, (blobValue bs).filled = blobValue bs := fun _ => rfl
  -- the signer's key is found and set alike
  have hsigner : withSigner (Object.filled tx) pair.publicKey =
      (withSigner tx pair.publicKey).map Object.filled := by
    unfold withSigner Object.getAs
    rw [Object.get?_filled]
    cases Object.get? tx Field.signingPubKey with
    | none =>
      show Except.ok _ = Except.ok _
      rw [Object.filled_insert, hblob]
    | some v =>
      simp only [Option.map_some, blob?_filled, Value.kind_filled]
      cases v.blob? with
      | none => rfl
      | some named =>
        simp only
        split <;> rfl
  unfold sign
  rw [hsigner]
  cases withSigner tx pair.publicKey with
  | error e => rfl
  | ok named =>
    simp only [Except.map, ← Object.filled_erase, signingData_filled]
    cases signingData (Object.erase Field.txnSignature named) with
    | error e => rfl
    | ok data =>
      simp only
      cases pair.sign data with
      | error e => rfl
      | ok signature =>
        simp only
        rw [← hblob signature, ← Object.filled_insert, hblob, Object.encode,
          Object.encodeAfter_filled]
        rfl

/-- A transaction is signed alike by `sign` whatever signature it has or lacks, and
whether or not it has the signer's key before. The signed form, if `Object.decode` reads
it, is read as a transaction that is signed as the same form again. -/
theorem sign_again (horder : Object.InOrder none tx) (hnormal : Object.IsNormal tx) :
    (∀ signature, sign (withSignature tx signature) pair = sign tx pair) ∧
      sign (Object.erase Field.txnSignature tx) pair = sign tx pair ∧
      (Object.get? tx Field.signingPubKey = none →
        sign (signedBy tx pair.publicKey) pair = sign tx pair) ∧
      ∀ s o, sign tx pair = .ok s → Object.decode s.blob = .ok o →
      sign o pair = .ok s := by
  have hascending := horder.ascending
  refine ⟨sign_withSignature hascending, sign_erase hascending, sign_signedBy, ?_⟩
  intro s o hs hread
  obtain ⟨data, signature, hdata, hsign, hencode⟩ := sign_inv horder hs
  -- the signer was set, or named before
  have hnamed : sign (signedBy tx pair.publicKey) pair = sign tx pair := by
    cases hsigner : withSigner tx pair.publicKey with
    | error e =>
      unfold sign at hs
      rw [hsigner] at hs
      cases hs
    | ok named =>
      rw [← withSigner_eq_ok horder hsigner]
      exact sign_named hsigner
  have hnormal' : Object.IsNormal
      (withSignature (signedBy tx pair.publicKey) signature) :=
    Object.isNormal_insert (Object.isNormal_insert hnormal ⟨trivial, trivial⟩)
      ⟨trivial, trivial⟩
  obtain ⟨-, rfl⟩ := Object.eq_filled_of_decode hnormal' hencode hread
  calc sign (Object.filled (withSignature (signedBy tx pair.publicKey) signature)) pair
      = sign (withSignature (signedBy tx pair.publicKey) signature) pair :=
        sign_filled _ _
    _ = sign (signedBy tx pair.publicKey) pair :=
        sign_withSignature (Object.ascending_insert hascending _ _) signature
    _ = sign tx pair := hnamed
    _ = .ok s := hs

/-- Memos ten levels deep around a field of no paths are signed, and so is what
`Object.decode` reads of the signed form, where the field has an empty path. -/
theorem sign_again_nestedMemos :
    ∃ pair s o, sign (memosTree 10) pair = .ok s ∧
      sign (withSignature (memosTree 10) [0xAB]) pair = .ok s ∧
      Object.decode s.blob = .ok o ∧
      Object.HasNoEmptyPathSet o ∧ ¬ Object.HasNoEmptyPathSet (memosTree 10) ∧
      sign o pair = .ok s := by
  obtain ⟨⟨-, hsigned⟩, -⟩ := accepted_nestedMemos
  cases hs : signJson (nestedMemos 10) zeroSeed with
  | error e =>
    rw [hs] at hsigned
    cases hsigned
  | ok s =>
    have ho : Object.ofJson (nestedMemos 10) = .ok (memosTree 10) := rfl
    obtain ⟨o', pair, hjson, -, hsign⟩ := signJson_inv hs
    cases ho.symm.trans hjson
    obtain ⟨horder, hnamed⟩ := Object.named_ofJson ho
    have hnormal := Object.isNormal_ofJson ho
    obtain ⟨hany, -, -, hagain⟩ := @sign_again _ pair horder hnormal
    -- the signed form is not nested too deep, so it can be read
    obtain ⟨data, signature, -, -, hencode⟩ := sign_inv horder hsign
    have hread := Object.decode_filled
      ((each_signed_iff hnamed (fun _ => trivial) (fun _ => trivial) _ _).mpr hnormal)
      hencode
      ((each_signed_iff hnamed (fun _ => by decide) (fun _ => by decide) _ _).mpr
        (markerFree_memosTree 10)) ((depth_signed hnamed _ _).trans_le (by decide))
    have hempty : ¬ Object.HasNoEmptyPathSet (memosTree 10) := by
      simp [memosTree, Object.HasNoEmptyPathSet, Object.Each, Value.Each]
    exact ⟨pair, s, _, hsign, (hany _).trans hsign, hread,
      Object.hasNoEmptyPathSet_of_decode hread, hempty, hagain s _ hsign hread⟩

end Signing

end XrpLedger
