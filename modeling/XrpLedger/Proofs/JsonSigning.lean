import XrpLedger.Proofs.BuiltTrees
import XrpLedger.Proofs.TypedSigning

/-!
# Signing transactions from JSON

What is signed is verified only if it can be read. A tree from JSON is written whatever
its depth and the names of its fields, and the reader refuses end markers and deep trees.

- `Signing.sign_inv`: what is signed is the object with its signer's key and a signature.
- `Signing.verify_signed`: the signed form of an object is verified if it can be read.
- `Signing.signJson_verified`: which transactions from JSON are verified, and what is read
  of them.
-/

namespace XrpLedger

/-! ## Filled objects -/

namespace Object

variable {o : Object}

/-- A field of an object that is `filled` is the field, filled. -/
theorem get?_filled (o : Object) (id : FieldId) :
    get? (filled o) id = (get? o id).map Value.filled := by
  induction o with
  | nil => rfl
  | cons field rest ih =>
    obtain ⟨i, w⟩ := field
    rw [filled, get?, get?]
    by_cases hi : i = id
    · rw [if_pos hi, if_pos hi]
      rfl
    · rw [if_neg hi, if_neg hi, ih]

/-- The `signingPart` does not depend on values, so an object may be `filled` before or
after. -/
theorem signingPart_filled (o : Object) :
    signingPart (filled o) = filled (signingPart o) := by
  unfold signingPart
  induction o with
  | nil => rfl
  | cons field rest ih =>
    obtain ⟨i, w⟩ := field
    rw [filled, List.filter_cons, List.filter_cons]
    by_cases hi : i.isSigningField = true
    · rw [if_pos hi, if_pos hi, filled, ih]
    · rw [if_neg hi, if_neg hi, ih]

/-- A blob in an object that `IsNamed` is no more than a scalar with octets. -/
theorem IsNamed.blob_of_get? (h : IsNamed o) {id : FieldId} {v : Value}
    (hget : get? o id = some v)
    (hid : id.kindCode = FieldKind.blob.code) : ∃ bs, v = .scalar (.blob bs) := by
  have hfits : v.kind.code = id.kindCode := (h.of_get? hget).1.2
  have hkind : v.kind = .blob := FieldKind.code_inj (hfits.trans hid)
  cases v with
  | scalar s =>
    cases s with
    | blob bs => exact ⟨bs, rfl⟩
    | _ => cases hkind
  | object o => cases hkind
  | array es => cases hkind

/-- Setting a blob with `insert` keeps what holds of `Each` level, if it holds
of blobs. -/
theorem IsNamed.each_insert_blob_iff {onField : FieldId → Value → Prop}
    {onWrapper : FieldId → Prop}
    (h : IsNamed o) {id : FieldId} (hid : id.kindCode = FieldKind.blob.code)
    (hblob : ∀ bs, onField id (.scalar (.blob bs))) (bs : Bytes) :
    Each onField onWrapper (insert id (.scalar (.blob bs)) o) ↔
    Each onField onWrapper o := by
  constructor
  · intro hinsert
    refine each_of_insert hinsert fun w hw => ?_
    obtain ⟨old, rfl⟩ := h.blob_of_get? hw hid
    exact ⟨hblob old, trivial⟩
  · intro heach
    exact each_insert heach (hblob bs) trivial

theorem IsNamed.depth_insert_blob (h : IsNamed o) {id : FieldId}
    (hid : id.kindCode = FieldKind.blob.code) (bs : Bytes) :
    depth (insert id (.scalar (.blob bs)) o) = depth o := by
  refine depth_insert_scalar (.blob bs) fun w hw => ?_
  obtain ⟨old, rfl⟩ := h.blob_of_get? hw hid
  rfl

end Object

/-! ## Signed objects -/

namespace Signing

variable {o : Object} {pair : KeyPair} {s : SignedTransaction}

/-- An object is covered by `signingData` as if it were `filled`. -/
theorem signingData_filled (o : Object) :
    signingData (Object.filled o) = signingData o := by
  rw [signingData, signingData, Object.encodeSigning, Object.encodeSigning,
    Object.signingPart_filled, Object.encode, Object.encodeAfter_filled]
  rfl

/-- An object that names its signer has the key set already, so `withSigner` makes the
object `signedBy` the signer. -/
theorem withSigner_eq_ok (ho : Object.InOrder none o) {signer : PublicKey} {o' : Object}
    (h : withSigner o signer = .ok o') : o' = signedBy o signer := by
  unfold withSigner Object.getAs at h
  cases hget : Object.get? o Field.signingPubKey with
  | none =>
    rw [hget] at h
    cases h
    rfl
  | some v =>
    rw [hget] at h
    simp only at h
    cases hblob : v.blob? with
    | none =>
      rw [hblob] at h
      cases h
    | some named =>
      rw [hblob] at h
      simp only at h
      split at h
      · next hnamed =>
        cases h
        have hv : v = blobValue signer.toBytes := by
          unfold Value.blob? at hblob
          split at hblob
          · cases hblob
            rw [← hnamed]
            rfl
          · cases hblob
        rw [hv] at hget
        exact (ho.ascending.insert_of_get? hget).symm
      · cases h

/-- What `sign` signs is the object with its signer's key and a signature of it, whatever
signature it had. -/
theorem sign_inv (ho : Object.InOrder none o) (h : sign o pair = .ok s) :
    ∃ data signature, signingData (signedBy o pair.publicKey) = .ok data ∧
      pair.sign data = .ok signature ∧
      Object.encode (withSignature (signedBy o pair.publicKey) signature) =
      .ok s.blob := by
  unfold sign at h
  cases hsigner : withSigner o pair.publicKey with
  | error e =>
    rw [hsigner] at h
    cases h
  | ok named =>
    have hnamed := withSigner_eq_ok ho hsigner
    subst hnamed
    have horder : Object.InOrder none (signedBy o pair.publicKey) :=
      Object.inOrder_insert ho (FieldId.follows_none _) trivial
    -- the signature that is removed is set again
    have hsame : ∀ signature, Object.insert Field.txnSignature (blobValue signature)
        (Object.erase Field.txnSignature (signedBy o pair.publicKey)) =
          withSignature (signedBy o pair.publicKey) signature :=
      fun signature => horder.ascending.insert_erase Field.txnSignature
        (blobValue signature)
    have hdata : signingData (Object.erase Field.txnSignature
      (signedBy o pair.publicKey)) =
        signingData (signedBy o pair.publicKey) := by
      rw [← signingData_withSignature _ [], withSignature, hsame,
        signingData_withSignature]
    rw [hsigner] at h
    simp only [hdata, hsame] at h
    split at h
    · cases h
    · next data hdata' =>
      split at h
      · cases h
      · next signature hsign =>
        split at h
        · cases h
        · next blob hencode =>
          cases h
          exact ⟨data, signature, hdata', hsign, hencode⟩

/-- The signed form of an object is verified by `verify` if it can be read. -/
theorem verify_signed {bs data signature : Bytes} {key : PublicKey}
    (hread : Object.decode bs =
      .ok (Object.filled (withSignature (signedBy o key) signature)))
    (hdata : signingData (signedBy o key) = .ok data)
    (haccepted : key.verify data signature = .ok ()) :
    verify bs = .ok (Object.filled (withSignature (signedBy o key) signature)) := by
  have hget := fun id =>
    Object.get?_filled (withSignature (signedBy o key) signature) id
  have hkey : Object.get? (Object.filled (withSignature (signedBy o key) signature))
      Field.signingPubKey = some (blobValue key.toBytes) := by
    rw [hget, get?_signed, if_neg (by decide), if_pos rfl]
    rfl
  have hsignature : Object.get? (Object.filled (withSignature (signedBy o key) signature))
      Field.txnSignature = some (blobValue signature) := by
    rw [hget, get?_signed, if_pos rfl]
    rfl
  refine verify_eq_ok hread hkey hsignature ?_ haccepted
  -- the verifier's octets are the signer's, who had no signature yet
  rw [signingData_filled, signingData_withSignature]
  exact hdata

theorem isNamed_signedBy (ho : Object.IsNamed o) (key : PublicKey) :
    Object.IsNamed (signedBy o key) :=
  Object.each_insert ho ⟨by decide, rfl⟩ trivial

/-- A property of `Each` level that blobs have holds of a signed object if it
held before. -/
theorem each_signed_iff {onField : FieldId → Value → Prop} {onWrapper : FieldId → Prop}
    (ho : Object.IsNamed o)
    (hkey : ∀ bs, onField Field.signingPubKey (.scalar (.blob bs)))
    (hsignature : ∀ bs, onField Field.txnSignature (.scalar (.blob bs))) (key : PublicKey)
    (signature : Bytes) :
    Object.Each onField onWrapper (withSignature (signedBy o key) signature) ↔
      Object.Each onField onWrapper o := by
  have hset : Object.Each onField onWrapper (withSignature (signedBy o key) signature) ↔
      Object.Each onField onWrapper (signedBy o key) :=
    (isNamed_signedBy ho key).each_insert_blob_iff rfl hsignature signature
  exact hset.trans (ho.each_insert_blob_iff rfl hkey key.toBytes)

/-- A signature does not change the `depth`. -/
theorem depth_signed (ho : Object.IsNamed o) (key : PublicKey) (signature : Bytes) :
    Object.depth (withSignature (signedBy o key) signature) = Object.depth o := by
  have hset : Object.depth (withSignature (signedBy o key) signature) =
      Object.depth (signedBy o key) :=
    (isNamed_signedBy ho key).depth_insert_blob rfl signature
  exact hset.trans (ho.depth_insert_blob rfl key.toBytes)

/-- What `signJson` signs is the object that `Object.ofJson` reads, with the keys of the
seed. -/
theorem signJson_inv {j : Json} {seed : Seed} (h : signJson j seed = .ok s) :
    ∃ o pair, Object.ofJson j = .ok o ∧ KeyPair.ofSeed seed = .ok pair ∧
    sign o pair = .ok s := by
  unfold signJson at h
  cases hjson : Object.ofJson j with
  | error e =>
    rw [hjson] at h
    cases h
  | ok o =>
    rw [hjson] at h
    simp only [signWithSeed] at h
    cases hseed : KeyPair.ofSeed seed with
    | error e =>
      rw [hseed] at h
      cases h
    | ok pair =>
      rw [hseed] at h
      exact ⟨o, pair, rfl, rfl, h⟩

/-- If `signJson` signs a transaction from JSON, with keys that accept the signature they
make of it, its signed form is verified by `verify` if and only if the transaction is
`MarkerFree`, so none of its fields and elements, at any level, goes by an end marker, and
it is nested ten levels deep at most. The transaction that is read from the form is the
one from JSON with the signer's key and the signature, and `filled` with an empty path in
each path set that has none. -/
theorem signJson_verified {j : Json} {seed : Seed}
    (haccepts : ∀ o, Object.ofJson j = .ok o → ∀ pair, KeyPair.ofSeed seed = .ok pair →
      ∀ message, signingData (signedBy o pair.publicKey) = .ok message →
      pair.AcceptsOwn message)
    (h : signJson j seed = .ok s) :
    ∃ o pair data signature, Object.ofJson j = .ok o ∧ KeyPair.ofSeed seed = .ok pair ∧
      signingData (signedBy o pair.publicKey) = .ok data ∧
      pair.sign data = .ok signature ∧
      ((∃ t, verify s.blob = .ok t) ↔
        Object.MarkerFree o ∧ Object.depth o ≤ Read.maxDepth) ∧
      ∀ t, verify s.blob = .ok t →
        t = Object.filled (withSignature (signedBy o pair.publicKey) signature) ∧
          (t = withSignature (signedBy o pair.publicKey) signature ↔
            Object.HasNoEmptyPathSet o) := by
  obtain ⟨o, pair, hjson, hseed, hsigned⟩ := signJson_inv h
  obtain ⟨horder, hnamed⟩ := Object.named_ofJson hjson
  obtain ⟨data, signature, hdata, hsign, hencode⟩ := sign_inv horder hsigned
  have hnormal : Object.IsNormal (withSignature (signedBy o pair.publicKey) signature) :=
    (each_signed_iff hnamed (fun _ => trivial) (fun _ => trivial) _ _).mpr
      (Object.isNormal_ofJson hjson)
  have hfree : Object.MarkerFree (withSignature (signedBy o pair.publicKey) signature) ↔
      Object.MarkerFree o :=
    each_signed_iff hnamed (fun _ => by decide) (fun _ => by decide) _ _
  have hpaths : Object.HasNoEmptyPathSet
      (withSignature (signedBy o pair.publicKey) signature) ↔
      Object.HasNoEmptyPathSet o :=
    each_signed_iff hnamed (fun _ => by simp) (fun _ => by simp) _ _
  have hdepth := depth_signed hnamed pair.publicKey signature
  have haccepted := haccepts o hjson pair hseed data hdata signature hsign
  refine ⟨o, pair, data, signature, hjson, hseed, hdata, hsign, ?_, ?_⟩
  · constructor
    · rintro ⟨t, ht⟩
      obtain ⟨hfree', rfl⟩ :=
        Object.eq_filled_of_decode hnormal hencode (decode_of_verify ht)
      have hlevels := (Object.decode_eq_ok.mp (decode_of_verify ht)).depth_le
      rw [Object.depth_filled, hdepth] at hlevels
      exact ⟨hfree.mp hfree', hlevels⟩
    · rintro ⟨hfree', hlevels⟩
      have hread := Object.decode_filled hnormal hencode (hfree.mpr hfree')
        (hdepth.trans_le hlevels)
      exact ⟨_, verify_signed hread hdata haccepted⟩
  · intro t ht
    obtain ⟨-, rfl⟩ := Object.eq_filled_of_decode hnormal hencode (decode_of_verify ht)
    exact ⟨rfl, (Object.filled_eq_self_iff _).trans hpaths⟩

/-- Memos inside each other, around a field of no paths. -/
def nestedMemos : Nat → Json
  | 0 => .object [("Paths", .array [])]
  | levels + 1 => .object [("Memo", nestedMemos levels)]

/-- The tree of the memos of `nestedMemos`. -/
def memosTree : Nat → Object
  | 0 => [(⟨18, 1⟩, .scalar (.pathSet []))]
  | levels + 1 => [(Field.memo, .object (memosTree levels))]

theorem markerFree_memosTree (levels : Nat) : Object.MarkerFree (memosTree levels) := by
  induction levels with
  | zero => exact ⟨by decide, trivial, trivial⟩
  | succ levels ih => exact ⟨show ¬ Field.memo.IsEndMarker by decide, ih, trivial⟩

/-- The seed of zeros. -/
def zeroSeed : Seed := ⟨.ed25519, ⟨List.replicate 16 0, rfl⟩⟩

/-- The keys of `zeroSeed` accept the signature that they make of a transaction. -/
def AcceptedOf (j : Json) : Prop :=
  ∀ o, Object.ofJson j = .ok o → ∀ pair, KeyPair.ofSeed zeroSeed = .ok pair →
    ∀ message, signingData (signedBy o pair.publicKey) = .ok message →
    pair.AcceptsOwn message

theorem accepted_nestedMemos :
    (AcceptedOf (nestedMemos 10) ∧ (signJson (nestedMemos 10) zeroSeed).isOk = true) ∧
      AcceptedOf (nestedMemos 11) ∧ (signJson (nestedMemos 11) zeroSeed).isOk = true := by
  unfold AcceptedOf
  refine ⟨?_, ?_⟩
  · decide +kernel
  · decide +kernel

/-- The `nestedMemos` of ten levels are verified, and the field of no paths is read as one
empty path. -/
theorem signJson_verified_nestedMemos :
    ∃ s t o, signJson (nestedMemos 10) zeroSeed = .ok s ∧ verify s.blob = .ok t ∧
      t = Object.filled o ∧ t ≠ o := by
  obtain ⟨⟨haccepts, hsigned⟩, -⟩ := accepted_nestedMemos
  cases hs : signJson (nestedMemos 10) zeroSeed with
  | error e =>
    rw [hs] at hsigned
    cases hsigned
  | ok s =>
    obtain ⟨o, pair, -, signature, hjson, -, -, -, hverified, hread⟩ :=
      signJson_verified haccepts hs
    have ho : Object.ofJson (nestedMemos 10) = .ok (memosTree 10) := rfl
    cases ho.symm.trans hjson
    obtain ⟨t, ht⟩ := hverified.mpr ⟨markerFree_memosTree 10, by decide⟩
    obtain ⟨hfilled, hsame⟩ := hread t ht
    have hempty : ¬ Object.HasNoEmptyPathSet (memosTree 10) := by
      simp [memosTree, Object.HasNoEmptyPathSet, Object.Each, Value.Each]
    exact ⟨s, t, _, rfl, ht, hfilled, fun heq => hempty (hsame.mp heq)⟩

/-- The `nestedMemos` of eleven levels are signed, but not verified. -/
theorem signJson_not_verified :
    ∃ s, AcceptedOf (nestedMemos 11) ∧ signJson (nestedMemos 11) zeroSeed = .ok s ∧
      ∀ t, verify s.blob ≠ .ok t := by
  obtain ⟨-, haccepts, hsigned⟩ := accepted_nestedMemos
  cases hs : signJson (nestedMemos 11) zeroSeed with
  | error e =>
    rw [hs] at hsigned
    cases hsigned
  | ok s =>
    refine ⟨s, haccepts, rfl, fun t ht => ?_⟩
    have ho : Object.ofJson (nestedMemos 11) = .ok (memosTree 11) := rfl
    obtain ⟨hnamed, hnormal⟩ :=
      And.intro (Object.named_ofJson ho) (Object.isNormal_ofJson ho)
    have hsign : sign (memosTree 11) (KeyPair.deriveEd25519 (List.replicate 16 0)) =
        .ok s := hs
    obtain ⟨data, signature, -, -, hencode⟩ := sign_inv hnamed.1 hsign
    -- the written form nests as deep as the memos do
    obtain ⟨-, rfl⟩ := Object.eq_filled_of_decode
      ((each_signed_iff hnamed.2 (fun _ => trivial) (fun _ => trivial) _ _).mpr hnormal)
      hencode
      (decode_of_verify ht)
    have hdepth := (Object.decode_eq_ok.mp (decode_of_verify ht)).depth_le
    rw [Object.depth_filled, depth_signed hnamed.2] at hdepth
    exact absurd hdepth (by decide)

end Signing

end XrpLedger
