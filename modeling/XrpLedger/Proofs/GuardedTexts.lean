import XrpLedger.Key.PublicKey
import XrpLedger.Proofs.Base58Text
import XrpLedger.Proofs.ScalarSpelling

/-!
# What a guarded text stands for

Addresses, seeds and public keys share the form of their texts and differ in their version
octets. No version octets are the first of others, so a text stands for one kind of thing,
and for one thing of that kind.

- `Text.Base58Check.decode_eq_ok`, `decodeVersioned_eq_ok`: the texts that are read as
  given octets.
- `AccountId.ofAddress_eq_ok`, `Seed.ofBase58_eq_ok`, `PublicKey.ofVersioned_eq_ok`: the
  one text of an account, of a seed and of a public key.
- `TextKind`: the kinds of text, with their version octets and their readers.
- `TextKind.reads_unique`: a text is read in one way, and as the thing that it is the text
  of.
-/

namespace XrpLedger

/-! ## Guarded texts -/

namespace Text.Base58Check

/-- A text is read by `decode` as octets exactly if it is their guarded text `encode`. -/
theorem decode_eq_ok {text : String} {data : Bytes} :
    decode text = .ok data ↔ text = encode data := by
  constructor
  · intro h
    unfold decode at h
    split at h
    · cases h
    · next bs hbs =>
      split at h
      · cases h
      · simp only at h
        split at h
        · next hsum =>
          cases h
          rw [encode, hsum, List.take_append_drop]
          exact Base58.decode_eq_ok.mp hbs
        · cases h
  · rintro rfl
    exact decode_encode data

/-- Texts that `encode` makes differ if the octets do. -/
theorem encode_inj {data data' : Bytes} (h : encode data = encode data') :
    data = data' := by
  have hread : decode (encode data) = .ok data' := decode_eq_ok.mpr h
  rw [decode_encode] at hread
  exact Except.ok.inj hread

/-- A text is read by `decodeVersioned` as a payload of the given length exactly if it is
what `encodeVersioned` makes of it. -/
theorem decodeVersioned_eq_ok {text : String} {version payload : Bytes} {n : Nat} :
    decodeVersioned text version n = .ok payload ↔
      payload.length = n ∧ text = encodeVersioned version payload := by
  constructor
  · intro h
    unfold decodeVersioned at h
    split at h
    · cases h
    · next data hdata =>
      split at h
      · next hversion =>
        simp only at h
        split at h
        · next hlength =>
          cases h
          -- the version octets stand in front of the data
          have hsplit : version ++ data.drop version.length = data := by
            calc version ++ data.drop version.length
                = data.take version.length ++ data.drop version.length := by rw [hversion]
              _ = data := List.take_append_drop version.length data
          refine ⟨hlength, ?_⟩
          rw [encodeVersioned, hsplit]
          exact decode_eq_ok.mp hdata
        · cases h
      · cases h
  · rintro ⟨rfl, rfl⟩
    exact decodeVersioned_encodeVersioned version payload

end Text.Base58Check

open Text

/-! ## Readers -/

/-- An account has one address: `ofAddress` reads it from `toAddress` only. -/
theorem AccountId.ofAddress_eq_ok {text : String} {id : AccountId} :
    ofAddress text = .ok id ↔ text = id.toAddress := by
  constructor
  · intro h
    unfold ofAddress at h
    split at h
    · next payload hpayload =>
      obtain ⟨-, htext⟩ := Base58Check.decodeVersioned_eq_ok.mp hpayload
      rw [htext, toAddress, ofBytes_eq_ok.mp h]
    all_goals cases h
  · rintro rfl
    exact ofAddress_toAddress id

namespace Seed

/-- The data that `ofData?` reads as a seed are its version octets and its own. -/
theorem ofData?_eq_some {keyType : KeyType} {data : Bytes} {seed : Seed} :
    ofData? keyType data = some seed ↔
      seed.keyType = keyType ∧ data = keyType.seedVersion ++ seed.entropy.toList := by
  constructor
  · intro h
    unfold ofData? at h
    simp only at h
    split at h
    · next hversion =>
      obtain ⟨entropy, hentropy, rfl⟩ := Option.map_eq_some_iff.mp h
      refine ⟨rfl, ?_⟩
      show data = keyType.seedVersion ++ entropy.toList
      calc data
          = data.take keyType.seedVersion.length ++
          data.drop keyType.seedVersion.length :=
            (List.take_append_drop _ _).symm
        _ = keyType.seedVersion ++ entropy.toList := by
            rw [hversion, FixedBytes.toList_of_ofBytes? hentropy]
    · cases h
  · rintro ⟨rfl, rfl⟩
    rw [ofData?, List.take_left, if_pos rfl, List.drop_left, FixedBytes.ofBytes?_toList,
      Option.map_some]

/-- Data that start with the version octets of one key type are no seed of the other for
`ofData?`. -/
theorem ofData?_eq_none {keyType keyType' : KeyType} (hne : keyType ≠ keyType')
    (octets : Bytes) :
    ofData? keyType (keyType'.seedVersion ++ octets) = none := by
  have hfirst : (keyType'.seedVersion ++ octets).take keyType.seedVersion.length ≠
      keyType.seedVersion := by
    intro h
    cases keyType <;> cases keyType'
    · exact hne rfl
    · exact absurd (List.cons.inj h).1 (by decide)
    · exact absurd (List.cons.inj h).1 (by decide)
    · exact hne rfl
  rw [ofData?, if_neg hfirst]

/-- A seed has one text `toBase58`, which tells its key type. -/
theorem ofBase58_eq_ok {text : String} {seed : Seed} :
    ofBase58 text = .ok seed ↔ text = seed.toBase58 := by
  constructor
  · intro h
    unfold ofBase58 at h
    split at h
    · cases h
    · next data hdata =>
      have hseed : ∃ keyType, ofData? keyType data = some seed := by
        split at h
        · next found _ hfound =>
          cases h
          exact ⟨.ed25519, hfound⟩
        · next found _ hfound =>
          cases h
          exact ⟨.secp256k1, hfound⟩
        · cases h
      obtain ⟨keyType, hdata'⟩ := hseed
      obtain ⟨rfl, rfl⟩ := ofData?_eq_some.mp hdata'
      exact Base58Check.decode_eq_ok.mp hdata
  · rintro rfl
    have hdata : Base58Check.decode seed.toBase58 =
        .ok (seed.keyType.seedVersion ++ seed.entropy.toList) :=
      Base58Check.decode_encode _
    have hown : ofData? seed.keyType (seed.keyType.seedVersion ++ seed.entropy.toList) =
        some seed :=
      ofData?_eq_some.mpr ⟨rfl, rfl⟩
    rw [ofBase58, hdata]
    simp only
    -- the data of one key type are no seed of the other
    cases hkind : seed.keyType with
    | ed25519 =>
      rw [hkind] at hown
      rw [hown]
    | secp256k1 =>
      rw [hkind] at hown
      rw [hown, ofData?_eq_none (by decide)]

end Seed

namespace PublicKey

/-- A public key has one text behind given version octets, for `ofVersioned`. -/
theorem ofVersioned_eq_ok {version : Bytes} {text : String} {key : PublicKey} :
    ofVersioned version text = .ok key ↔
      text = Base58Check.encodeVersioned version key.toBytes := by
  constructor
  · intro h
    unfold ofVersioned at h
    split at h
    · next payload hpayload =>
      obtain ⟨-, htext⟩ := Base58Check.decodeVersioned_eq_ok.mp hpayload
      rw [htext, ofBytes_eq_ok.mp h]
    · cases h
  · rintro rfl
    have hpayload := Base58Check.decodeVersioned_encodeVersioned version key.toBytes
    have hlength : key.toBytes.length = size := key.raw.length_eq
    rw [hlength] at hpayload
    rw [ofVersioned, hpayload]
    exact ofBytes_eq_ok.mpr rfl

end PublicKey

/-! ## Kinds of text -/

/-- What a guarded text stands for. -/
inductive TextKind where
  | account
  | seed
  | accountKey
  | nodeKey
  deriving DecidableEq

namespace TextKind

/-- The version octets of a kind: a seed has those of its key type. -/
def versions : TextKind → List Bytes
  | account => [AccountId.version]
  | seed => [KeyType.seedVersion .secp256k1, KeyType.seedVersion .ed25519]
  | accountKey => [PublicKey.accountVersion]
  | nodeKey => [PublicKey.nodeVersion]

/-- Whether a text is read as one of a kind. -/
def reads : TextKind → String → Bool
  | account, text => (AccountId.ofAddress text).isOk
  | seed, text => (Seed.ofBase58 text).isOk
  | accountKey, text => (PublicKey.ofAccountPublic text).isOk
  | nodeKey, text => (PublicKey.ofNodePublic text).isOk

theorem seedVersion_mem_versions (keyType : KeyType) :
    keyType.seedVersion ∈ versions .seed := by
  cases keyType
  · exact List.mem_cons_self
  · exact List.mem_cons_of_mem _ List.mem_cons_self

/-- The octets `versions` of all kinds form a prefix code. -/
theorem versions_prefixFree {kind kind' : TextKind} :
    ∀ v ∈ kind.versions, ∀ w ∈ kind'.versions, v <+: w → kind = kind' := by
  cases kind <;> cases kind' <;> decide

theorem exists_of_isOk {α : Type} {r : Except CodecError α} (h : r.isOk = true) :
    ∃ a, r = .ok a := by
  cases r with
  | ok a => exact ⟨a, rfl⟩
  | error e => cases h

/-- A text that `reads` takes as one of a kind has version octets of that kind. -/
theorem exists_version {kind : TextKind} {text : String} (h : kind.reads text = true) :
    ∃ v ∈ kind.versions, ∃ payload, text = Base58Check.encodeVersioned v payload := by
  cases kind with
  | account =>
    obtain ⟨id, hid⟩ := exists_of_isOk h
    exact ⟨_, List.mem_cons_self, id.toBytes, AccountId.ofAddress_eq_ok.mp hid⟩
  | seed =>
    obtain ⟨seed, hseed⟩ := exists_of_isOk h
    exact ⟨_, seedVersion_mem_versions seed.keyType, seed.entropy.toList,
      Seed.ofBase58_eq_ok.mp hseed⟩
  | accountKey =>
    obtain ⟨key, hkey⟩ := exists_of_isOk h
    exact ⟨_, List.mem_cons_self, key.toBytes, PublicKey.ofVersioned_eq_ok.mp hkey⟩
  | nodeKey =>
    obtain ⟨key, hkey⟩ := exists_of_isOk h
    exact ⟨_, List.mem_cons_self, key.toBytes, PublicKey.ofVersioned_eq_ok.mp hkey⟩

/-- A text is read by `reads` as one kind of thing. -/
theorem eq_of_reads {kind kind' : TextKind} {text : String} (h : kind.reads text = true)
    (h' : kind'.reads text = true) : kind = kind' := by
  obtain ⟨v, hv, payload, rfl⟩ := exists_version h
  obtain ⟨w, hw, payload', htext⟩ := exists_version h'
  have hdata : v ++ payload = w ++ payload' := Base58Check.encode_inj htext
  -- both version octets stand first in the same data, so the shorter are the first of the
  -- longer
  rcases List.prefix_or_prefix_of_prefix ⟨payload,
    hdata⟩ (List.prefix_append w payload') with
    hvw | hwv
  · exact versions_prefixFree v hv w hw hvw
  · exact (versions_prefixFree w hw v hv hwv).symm

/-- A text is read in at most one of the four ways of `TextKind`. What is read has no
other text, and it is what is read from its text. -/
theorem reads_unique (text : String) :
    {kind : TextKind | kind.reads text = true}.Subsingleton ∧
      (∀ id, AccountId.ofAddress text = .ok id ↔ text = id.toAddress) ∧
      (∀ seed, Seed.ofBase58 text = .ok seed ↔ text = seed.toBase58) ∧
      (∀ key, PublicKey.ofAccountPublic text = .ok key ↔ text = key.toAccountPublic) ∧
      (∀ key, PublicKey.ofNodePublic text = .ok key ↔ text = key.toNodePublic) := by
  refine ⟨?_, ?_, ?_, ?_, ?_⟩
  · intro kind h kind' h'
    exact eq_of_reads h h'
  · intro id
    exact AccountId.ofAddress_eq_ok
  · intro seed
    exact Seed.ofBase58_eq_ok
  · intro key
    exact PublicKey.ofVersioned_eq_ok
  · intro key
    exact PublicKey.ofVersioned_eq_ok

/-- The text of an edwards25519 seed. -/
example : [account, seed, accountKey, nodeKey].map
    (reads · "sEdTM1uX8pu2do5XvTnutH6HsouMaM2") =
    [false, true, false, false] := by decide +kernel

end TextKind

end XrpLedger
