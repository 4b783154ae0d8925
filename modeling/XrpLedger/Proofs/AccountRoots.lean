import XrpLedger.Proofs.FieldEntries
import XrpLedger.Proofs.LedgerEntries
import XrpLedger.Proofs.TypedFields
import XrpLedger.Proofs.Writability

/-!
# Account roots and their binary form

The field tree of an account root can always be built. It holds the entry type, the seven
fields that every account has and those of the other seven that this account has, and
nothing else. So the account root is read from it again, and from what it is written as.

- `AccountRoot.lower_eq_ok`: setting the fields by name, under all checks, makes the field
  tree.
- `AccountRoot.ofObject_eq_ok`: a tree with the same fields is read as the account root.
- `AccountRoot.madeOf_entries`: the tree is made of one entry for each field.
- `AccountRoot.canonical_toObject`, `AccountRoot.wellFormed_toObject`: the field tree is
  one that can be read, and one that is refused for its scalars only.
- `AccountRoot.writable_toObject`: these are the two payloads of variable length.
- `AccountRoot.lower_restored`: from the account root to its binary form and back.
-/

namespace XrpLedger

namespace AccountRoot

open Object

variable {r : AccountRoot} {o : Object}

/-! ## The field tree -/

/-- The fields of an account root have names and values of their kinds, so `lower` makes
`toObject` of it. -/
theorem lower_eq_ok (r : AccountRoot) : r.lower = .ok r.toObject := by
  rw [lower, TypedField.ledgerEntryType.bind_set, TypedField.account.bind_set,
    TypedField.balance.bind_set, TypedField.flags.bind_set,
    TypedField.ownerCount.bind_set, TypedField.previousTxnId.bind_set,
    TypedField.previousTxnLgrSeq.bind_set, TypedField.sequence.bind_set,
    TypedField.accountTxnId.bind_setSome, TypedField.domain.bind_setSome,
    TypedField.emailHash.bind_setSome, TypedField.messageKey.bind_setSome,
    TypedField.regularKey.bind_setSome, TypedField.tickSize.bind_setSome,
    TypedField.transferRate.setSome_eq_ok]
  rfl

/-- The fields of an account root, each with its value if there is one. -/
def entries (r : AccountRoot) : List (FieldId × Option Value) :=
  [(Field.ledgerEntryType, some (.scalar (.uint16 entryType))),
    (Field.account, some (.scalar (.accountId r.account))),
    (Field.balance, some (.scalar (.amount (.native r.balance)))),
    (Field.flags, some (.scalar (.uint32 r.flags))),
    (Field.ownerCount, some (.scalar (.uint32 r.ownerCount))),
    (Field.previousTxnId, some (.scalar (.hash256 r.previousTxnId))),
    (Field.previousTxnLgrSeq, some (.scalar (.uint32 r.previousTxnLgrSeq))),
    (Field.sequence, some (.scalar (.uint32 r.sequence))),
    (Field.accountTxnId, r.accountTxnId.map fun a => .scalar (.hash256 a)),
    (Field.domain, r.domain.map fun a => .scalar (.blob a)),
    (Field.emailHash, r.emailHash.map fun a => .scalar (.hash128 a)),
    (Field.messageKey, r.messageKey.map fun a => .scalar (.blob a)),
    (Field.regularKey, r.regularKey.map fun a => .scalar (.accountId a)),
    (Field.tickSize, r.tickSize.map fun a => .scalar (.uint8 a)),
    (Field.transferRate, r.transferRate.map fun a => .scalar (.uint32 a))]

/-- Every field of `entries` has a code and is no end marker. -/
theorem entries_fields (r : AccountRoot) :
    ∀ id ∈ r.entries.map Prod.fst, id.fieldCode ≠ 0 ∧ ¬ id.IsEndMarker := by
  -- the fields do not depend on the account, so their list is closed
  simp only [entries, List.map_cons, List.map_nil]
  decide

/-- The tree `toObject` of an account root is made of its `entries`. -/
theorem madeOf_entries (r : AccountRoot) : MadeOf r.entries r.toObject where
  eq_foldl := by
    simp only [toObject, insertSome_eq]
    rfl
  nodup := by
    simp only [entries, List.map_cons, List.map_nil]
    decide

/-- The `entries` hold scalars, of the kinds of their fields. -/
theorem scalar_of_mem_entries (r : AccountRoot) :
    ∀ entry ∈ r.entries, ∀ v ∈ entry.2,
      v.Fits entry.1 ∧ ∃ s : Scalar, v = .scalar s ∧ s.IsNormal ∧ s ≠ .pathSet [] := by
  simp +decide [entries, Value.Fits, Value.kind, Scalar.kind, Scalar.IsNormal,
    Amount.IsNormal]

/-- The field tree `toObject` of an account root is `Canonical`, so it can be read. -/
theorem canonical_toObject (r : AccountRoot) : Canonical r.toObject := by
  refine r.madeOf_entries.canonical (fun id hid => (r.entries_fields id hid).2) ?_
  intro entry hentry v hv
  obtain ⟨-, s, rfl, hnormal, hne⟩ := r.scalar_of_mem_entries entry hentry v hv
  exact Value.canonical_scalar hnormal hne

/-- The field tree `toObject` is `WellFormed`: in order, with values that fit their
fields. -/
theorem wellFormed_toObject (r : AccountRoot) : WellFormed r.toObject := by
  refine ⟨r.canonical_toObject.inOrder, each_iff.mpr ?_⟩
  rw [r.madeOf_entries.forall_mem_iff (P := fun id v => v.Fits id ∧ v.Each _ _)]
  intro entry hentry v hv
  obtain ⟨hfits, s, rfl, -, -⟩ := r.scalar_of_mem_entries entry hentry v hv
  exact ⟨hfits, trivial⟩

/-- The field tree `toObject` is `Writable` unless the domain or the message key is too
long. -/
theorem writable_toObject (r : AccountRoot) :
    Writable r.toObject ↔ (∀ domain ∈ r.domain, domain.length ≤ Length.limit) ∧
      ∀ key ∈ r.messageKey, key.length ≤ Length.limit := by
  -- there is no object inside, so only the scalars can be refused
  have hscalars : Writable r.toObject ↔
      ∀ entry ∈ r.entries, ∀ v ∈ entry.2, v.IsWritableScalar := by
    rw [Writable, each_iff,
      r.madeOf_entries.forall_mem_iff (P := fun id v => id.WritableWith v ∧ v.Each _ _)]
    refine forall₄_congr fun entry hentry v hv => ?_
    obtain ⟨-, s, rfl, -, -⟩ := r.scalar_of_mem_entries entry hentry v hv
    have hcode := (r.entries_fields _ (List.mem_map_of_mem hentry)).1
    rw [FieldId.WritableWith, and_iff_right hcode]
    exact and_iff_left trivial
  rw [hscalars]
  simp [entries, Value.IsWritableScalar, Scalar.Writable]

/-! ## Reading back -/

/-- The entry type of an account root passes `checkEntryType`. -/
theorem checkEntryType_eq_ok
    (h : get? o Field.ledgerEntryType = some (.scalar (.uint16 entryType))) :
    checkEntryType o = .ok () := by
  rw [checkEntryType, TypedField.ledgerEntryType.bind_require h]
  rfl

/-- A native balance is read by `balanceOfObject`. -/
theorem balanceOfObject_eq_ok {balance : Drops}
    (h : get? o Field.balance = some (.scalar (.amount (.native balance)))) :
    balanceOfObject o = .ok balance := by
  rw [balanceOfObject, TypedField.balance.bind_require h]
  rfl

/-- An account root is read by `ofObject` from any tree with its `entries`. -/
theorem ofObject_eq_ok (h : ∀ entry ∈ r.entries, get? o entry.1 = entry.2) :
    ofObject o = .ok r := by
  -- one equation for each field, in the order in which they are read
  simp only [entries, List.forall_mem_cons] at h
  obtain ⟨htype, haccount, hbalance, hflags, hownerCount, hpreviousTxnId,
    hpreviousTxnLgrSeq, hsequence, haccountTxnId, hdomain, hemailHash, hmessageKey,
    hregularKey, htickSize, htransferRate, -⟩ := h
  rw [ofObject, checkEntryType_eq_ok htype, balanceOfObject_eq_ok hbalance]
  show (requireNamed o "Account" Value.accountId? >>= _) = _
  rw [TypedField.account.bind_require haccount, TypedField.flags.bind_require hflags,
    TypedField.ownerCount.bind_require hownerCount,
    TypedField.previousTxnId.bind_require hpreviousTxnId,
    TypedField.previousTxnLgrSeq.bind_require hpreviousTxnLgrSeq,
    TypedField.sequence.bind_require hsequence,
    TypedField.accountTxnId.bind_get haccountTxnId, TypedField.domain.bind_get hdomain,
    TypedField.emailHash.bind_get hemailHash, TypedField.messageKey.bind_get hmessageKey,
    TypedField.regularKey.bind_get hregularKey, TypedField.tickSize.bind_get htickSize,
    TypedField.transferRate.bind_get htransferRate]
  rfl

/-- What `encode` makes of the field tree is read by `LedgerEntry.decode` as an entry of
the ledger. -/
theorem decode_encode_toObject {bs : Bytes} (h : encode r.toObject = .ok bs) :
    LedgerEntry.decode bs = .ok (.accountRoot r) := by
  have hread := r.canonical_toObject.decode_encode h
  have htype := r.madeOf_entries.get?_eq
    (Field.ledgerEntryType, some (.scalar (.uint16 entryType)))
    List.mem_cons_self
  exact LedgerEntry.decode_eq_ok.mpr ⟨r.toObject, entryType, hread, htype,
    LedgerEntry.ofTyped_eq_ok.mpr ⟨rfl,
      .inl ⟨r, ofObject_eq_ok r.madeOf_entries.get?_eq, rfl⟩⟩⟩

/-- The field tree of an account root is built by `lower`, and the account root is read
from it by `ofObject`. The tree is written by `encode` unless the domain or the message
key is too long, and what it is written as is read by `LedgerEntry.decode` as an entry of
the ledger that is the account root. -/
theorem lower_restored (r : AccountRoot) :
    ∃ o, r.lower = .ok o ∧ ofObject o = .ok r ∧
      ((∃ bs, encode o = .ok bs) ↔ (∀ domain ∈ r.domain, domain.length ≤ Length.limit) ∧
        ∀ key ∈ r.messageKey, key.length ≤ Length.limit) ∧
      ∀ bs, encode o = .ok bs → LedgerEntry.decode bs = .ok (.accountRoot r) := by
  refine ⟨r.toObject, r.lower_eq_ok, ofObject_eq_ok r.madeOf_entries.get?_eq,
    ?_, fun bs h => ?_⟩
  · exact r.wellFormed_toObject.settles_encode.ok_iff.trans r.writable_toObject
  · exact decode_encode_toObject h

theorem million_le_maxCount : 1_000_000 ≤ Drops.maxCount := by decide

/-- An account with every field. -/
def complete : AccountRoot where
  account := IssuedAmount.one.issuer
  balance := ⟨1_000_000, million_le_maxCount⟩
  flags := AccountFlag.requireDestTag.bit
  ownerCount := 3
  previousTxnId := ⟨List.replicate 32 2, rfl⟩
  previousTxnLgrSeq := 5990300
  sequence := 4
  accountTxnId := some ⟨List.replicate 32 3, rfl⟩
  domain := some [0x78, 0x2e, 0x69, 0x6f]
  emailHash := some ⟨List.replicate 16 4, rfl⟩
  messageKey := some (List.replicate 33 2)
  regularKey := some ⟨⟨List.replicate 20 5, rfl⟩⟩
  tickSize := some 6
  transferRate := some 1005000000

/-- The account root `complete`, with every field, is read back from what it is written
as. -/
theorem lower_restored_complete :
    ∃ o bs, complete.lower = .ok o ∧ ofObject o = .ok complete ∧ encode o = .ok bs ∧
      LedgerEntry.decode bs = .ok (.accountRoot complete) := by
  obtain ⟨o, ho, hread, hwritten, hdecode⟩ := lower_restored complete
  obtain ⟨bs, hbs⟩ := hwritten.mpr ⟨by decide, by decide⟩
  exact ⟨o, bs, ho, hread, hbs, hdecode bs hbs⟩

end AccountRoot

end XrpLedger
