import XrpLedger.Proofs.BuiltTrees
import XrpLedger.Proofs.FieldEntries
import XrpLedger.Proofs.TypedFields

/-!
# Field trees of typed transactions

The field tree of a typed transaction can always be built, and the transaction can be told
from it, even among fields that typed transactions do not have.

- `Transaction.lower_eq_ok`: setting the fields by name, under all checks, makes the field
  tree.
- `Memo.madeOf_entries`, `Transaction.madeOf_entries`: the trees of memos and transactions
  are made of entries, one for each field.
- `Transaction.canonical_toObject`: the field tree is one that can be read.
- `Transaction.ofObject_eq_ok`: a tree with the same fields of the transaction is read as
  it.
-/

namespace XrpLedger

/-! ## Fields set by name -/

open Object TypedField

/-- The fields of a memo have names and hold blobs, so `lower` makes `toObject` of it. -/
theorem Memo.lower_eq_ok (m : Memo) : m.lower = .ok m.toObject := by
  rw [lower, memoType.bind_setSome, memoData.bind_setSome, memoFormat.setSome_eq_ok]
  rfl

/-- The type-dependent part is set by `lower` as by `addTo`. -/
theorem TransactionKind.lower_eq_ok (kind : TransactionKind) (o : Object) :
    kind.lower o = .ok (kind.addTo o) := by
  cases kind with
  | payment =>
    rw [lower, destination.bind_set, amount.bind_set, destinationTag.bind_setSome,
      invoiceId.bind_setSome, sendMax.bind_setSome, deliverMin.setSome_eq_ok]
    rfl
  | accountSet =>
    rw [lower, setFlag.bind_setSome, clearFlag.bind_setSome, domain.bind_setSome,
      emailHash.bind_setSome, transferRate.bind_setSome, tickSize.setSome_eq_ok]
    rfl
  | setRegularKey key => exact regularKey.setSome_eq_ok key o
  | trustSet =>
    rw [lower, limitAmount.bind_set, qualityIn.bind_setSome, qualityOut.setSome_eq_ok]
    rfl
  | offerCreate =>
    rw [lower, takerPays.bind_set, takerGets.bind_set, expiration.bind_setSome,
      offerSequence.setSome_eq_ok]
    rfl
  | offerCancel sequence => exact offerSequence.set_eq_ok sequence o

namespace Transaction

/-- The memos are lowered by `lowerMemos` one by one, each in a wrapper. -/
theorem lowerMemos_eq_ok (memos : List Memo) :
    lowerMemos memos = .ok (memos.map fun m => (Field.memo, m.toObject)) := by
  have hid : FieldId.ofName "Memo" = .ok Field.memo := by decide
  rw [lowerMemos, hid]
  refine mapM_eq_ok.mpr (List.forall₂_map_right_iff.mpr (List.forall₂_same.mpr ?_))
  intro m _
  rw [m.lower_eq_ok]
  rfl

/-- The array of memos fits its field, so `setMemos` does what `addMemos` does. -/
theorem setMemos_eq_ok (memos : List Memo) (o : Object) :
    setMemos memos o = .ok (addMemos memos o) := by
  unfold setMemos addMemos
  split
  · rfl
  · have hname : FieldId.ofName? "Memos" = some Field.memos := by decide
    have hfits : ∀ es, (Value.array es).Fits Field.memos := fun _ => rfl
    rw [lowerMemos_eq_ok]
    exact setNamed_eq_ok hname (hfits _) o

theorem lowerCommon_eq_ok (tx : Transaction) :
    tx.lowerCommon tx.kind.code = .ok tx.commonPart := by
  rw [lowerCommon, transactionType.bind_set, TypedField.account.bind_set,
    TypedField.fee.bind_set, TypedField.sequence.bind_set, TypedField.flags.bind_set,
    TypedField.lastLedgerSequence.bind_setSome, TypedField.sourceTag.bind_setSome,
    TypedField.networkId.bind_setSome,
    TypedField.ticketSequence.bind_setSome, setMemos_eq_ok]
  rfl

/-- The fields of every transaction have names and values of their kinds, so `lower` makes
`toObject` of it. -/
theorem lower_eq_ok (tx : Transaction) : tx.lower = .ok tx.toObject := by
  have hcode : TransactionType.code? tx.typeName = some tx.kind.code := by
    unfold typeName
    cases tx.kind <;> rfl
  rw [lower, hcode]
  simp only
  rw [lowerCommon_eq_ok]
  exact tx.kind.lower_eq_ok tx.commonPart

end Transaction

/-! ## Entries -/

/-- The fields of a memo, each with its value if there is one. -/
def Memo.entries (m : Memo) : List (FieldId × Option Value) :=
  [(Field.memoType, m.type.map fun a => .scalar (.blob a)),
    (Field.memoData, m.data.map fun a => .scalar (.blob a)),
    (Field.memoFormat, m.format.map fun a => .scalar (.blob a))]

/-- The fields of the type-dependent part, each with its value if there is one. -/
def TransactionKind.entries : TransactionKind → List (FieldId × Option Value)
  | .payment destination amount destinationTag invoiceId sendMax deliverMin =>
    [(Field.destination, some (.scalar (.accountId destination))),
      (Field.amount, some (.scalar (.amount amount))),
      (Field.destinationTag, destinationTag.map fun a => .scalar (.uint32 a)),
      (Field.invoiceId, invoiceId.map fun a => .scalar (.hash256 a)),
      (Field.sendMax, sendMax.map fun a => .scalar (.amount a)),
      (Field.deliverMin, deliverMin.map fun a => .scalar (.amount a))]
  | .accountSet setFlag clearFlag domain emailHash transferRate tickSize =>
    [(Field.setFlag, setFlag.map fun a => .scalar (.uint32 a)),
      (Field.clearFlag, clearFlag.map fun a => .scalar (.uint32 a)),
      (Field.domain, domain.map fun a => .scalar (.blob a)),
      (Field.emailHash, emailHash.map fun a => .scalar (.hash128 a)),
      (Field.transferRate, transferRate.map fun a => .scalar (.uint32 a)),
      (Field.tickSize, tickSize.map fun a => .scalar (.uint8 a))]
  | .setRegularKey regularKey =>
    [(Field.regularKey, regularKey.map fun a => .scalar (.accountId a))]
  | .trustSet limitAmount qualityIn qualityOut =>
    [(Field.limitAmount, some (.scalar (.amount (.issued limitAmount)))),
      (Field.qualityIn, qualityIn.map fun a => .scalar (.uint32 a)),
      (Field.qualityOut, qualityOut.map fun a => .scalar (.uint32 a))]
  | .offerCreate takerPays takerGets expiration offerSequence =>
    [(Field.takerPays, some (.scalar (.amount takerPays))),
      (Field.takerGets, some (.scalar (.amount takerGets))),
      (Field.expiration, expiration.map fun a => .scalar (.uint32 a)),
      (Field.offerSequence, offerSequence.map fun a => .scalar (.uint32 a))]
  | .offerCancel offerSequence =>
    [(Field.offerSequence, some (.scalar (.uint32 offerSequence)))]

/-- The memos as the value of their field, if there are any. -/
def memosValue (memos : List Memo) : Option Value :=
  if memos = [] then none else some (.array (memos.map fun m => (Field.memo, m.toObject)))

/-- The fields of a transaction, each with its value if there is one. -/
def Transaction.entries (tx : Transaction) : List (FieldId × Option Value) :=
  [(Field.transactionType, some (.scalar (.uint16 tx.kind.code))),
    (Field.account, some (.scalar (.accountId tx.account))),
    (Field.fee, some (.scalar (.amount (.native tx.fee)))),
    (Field.sequence, some (.scalar (.uint32 tx.sequence))),
    (Field.flags, some (.scalar (.uint32 tx.flags))),
    (Field.lastLedgerSequence, tx.lastLedgerSequence.map fun a => .scalar (.uint32 a)),
    (Field.sourceTag, tx.sourceTag.map fun a => .scalar (.uint32 a)),
    (Field.networkId, tx.networkId.map fun a => .scalar (.uint32 a)),
    (Field.ticketSequence, tx.ticketSequence.map fun a => .scalar (.uint32 a)),
    (Field.memos, memosValue tx.memos)] ++ tx.kind.entries

/-- The tree `toObject` of a memo is made of its `entries`. -/
theorem Memo.madeOf_entries (m : Memo) : Object.MadeOf m.entries m.toObject where
  eq_foldl := by
    simp only [toObject, Object.insertSome_eq]
    rfl
  nodup := by
    simp only [entries, List.map_cons, List.map_nil]
    decide

theorem TransactionKind.addTo_eq (kind : TransactionKind) (o : Object) :
    kind.addTo o = kind.entries.foldl Object.insertEntry o := by
  cases kind <;> simp only [addTo, entries, Object.insertSome_eq] <;> rfl

theorem Transaction.addMemos_eq (memos : List Memo) (o : Object) :
    addMemos memos o = Object.insertEntry o (Field.memos, memosValue memos) := by
  unfold addMemos memosValue
  split <;> rfl

/-- The field tree `toObject` is what the `entries` set one after the other. -/
theorem Transaction.toObject_eq (tx : Transaction) :
    tx.toObject = tx.entries.foldl Object.insertEntry [] := by
  rw [toObject, TransactionKind.addTo_eq, entries, List.foldl_append]
  simp only [commonPart, Object.insertSome_eq, addMemos_eq]
  rfl

/-- No two `entries` are of the same field, and none is of a field that signing sets or of
an end marker. -/
theorem Transaction.entries_fields (tx : Transaction) :
    (tx.entries.map Prod.fst).Nodup ∧ Field.signingPubKey ∉ tx.entries.map Prod.fst ∧
      Field.txnSignature ∉ tx.entries.map Prod.fst ∧ ∀ id ∈ tx.entries.map Prod.fst,
        ¬ id.IsEndMarker := by
  obtain ⟨account, fee, sequence, flags, lastLedgerSequence, sourceTag, networkId,
    ticketSequence, memos, kind⟩ := tx
  -- the fields depend on the type alone, so their list is closed
  cases kind <;> (simp only [entries, TransactionKind.entries, List.cons_append,
    List.nil_append, List.map_cons, List.map_nil]; decide)

/-- The tree `toObject` of a transaction is made of its `entries`. -/
theorem Transaction.madeOf_entries (tx : Transaction) :
    Object.MadeOf tx.entries tx.toObject :=
  ⟨tx.toObject_eq, tx.entries_fields.1⟩

/-! ## Trees that can be read -/

/-- The amounts of the type-dependent part. -/
def TransactionKind.amounts : TransactionKind → List Amount
  | .payment _ amount _ _ sendMax deliverMin =>
    amount :: (sendMax.toList ++ deliverMin.toList)
  | .trustSet limitAmount _ _ => [.issued limitAmount]
  | .offerCreate takerPays takerGets _ _ => [takerPays, takerGets]
  | _ => []

/-- All issued amounts of the transaction are normal. -/
def Transaction.IsNormal (tx : Transaction) : Prop :=
  ∀ a ∈ tx.kind.amounts, a.IsNormal

theorem Value.canonical_of_mem_map {α : Type} {make : α → Scalar} {a : Option α}
    (hmake : ∀ b ∈ a, (make b).IsNormal ∧ make b ≠ .pathSet []) :
    ∀ v ∈ a.map fun b => Value.scalar (make b), v.Canonical := by
  intro v hv
  obtain ⟨b, hb, rfl⟩ := Option.mem_map.mp hv
  exact Value.canonical_scalar (hmake b hb).1 (hmake b hb).2

/-- An array of flat objects is `Canonical` if these are. -/
theorem Value.canonical_array {es : Elements}
    (hes : ∀ e ∈ es, ¬ e.1.IsEndMarker ∧ Object.Canonical e.2 ∧ Object.depth e.2 = 0) :
    (Value.array es).Canonical := by
  suffices h : Elements.InOrder es ∧ Elements.MarkerFree es ∧ Elements.depth es ≤ 1 ∧
      Elements.IsNormal es ∧ Elements.HasNoEmptyPathSet es from
    ⟨h.1, h.2.1, Nat.succ_le_succ (h.2.2.1.trans (by decide)),
      ⟨trivial, h.2.2.2.1⟩, by simp, h.2.2.2.2⟩
  induction es with
  | nil => exact ⟨trivial, trivial, Nat.zero_le _, trivial, trivial⟩
  | cons e rest ih =>
    obtain ⟨id, o⟩ := e
    rw [List.forall_mem_cons] at hes
    obtain ⟨⟨hid, ho, hdepth⟩, hrest⟩ := hes
    obtain ⟨horder, hfree, hdepth', hnormal, hempty⟩ := ih hrest
    refine ⟨⟨ho.inOrder, horder⟩, ⟨hid, ho.markerFree, hfree⟩, ?_,
      ⟨trivial, ho.isNormal, hnormal⟩, ⟨trivial, ho.hasNoEmptyPathSet, hempty⟩⟩
    show max (Object.depth o + 1) (Elements.depth rest) ≤ 1
    rw [hdepth]
    exact Nat.max_le.mpr ⟨Nat.le_refl 1, hdepth'⟩

/-- The object `toObject` of a memo is `Canonical`. -/
theorem Memo.canonical_toObject (m : Memo) : Object.Canonical m.toObject := by
  have hblob : ∀ bs : Option Bytes, ∀ v ∈ bs.map fun a => Value.scalar (.blob a),
      v.Canonical :=
    fun _ => Value.canonical_of_mem_map fun _ _ => ⟨trivial, by simp⟩
  refine m.madeOf_entries.canonical ?_ ?_
  · simp only [entries, List.map_cons, List.map_nil]
    decide
  · simp only [entries, List.forall_mem_cons, List.not_mem_nil, false_implies,
      implies_true, and_true]
    exact ⟨hblob m.type, hblob m.data, hblob m.format⟩

theorem Memo.depth_toObject (m : Memo) : Object.depth m.toObject = 0 := by
  obtain ⟨type, data, format⟩ := m
  cases type <;> cases data <;> cases format <;> rfl

/-- The array of the memos is `Canonical`, if there are any. -/
theorem memosValue_canonical (memos : List Memo) :
    ∀ v ∈ memosValue memos, v.Canonical := by
  intro v hv
  unfold memosValue at hv
  split at hv
  · cases hv
  · cases hv
    refine Value.canonical_array fun e he => ?_
    obtain ⟨m, -, rfl⟩ := List.mem_map.mp he
    exact ⟨show ¬ Field.memo.IsEndMarker by decide, m.canonical_toObject,
      m.depth_toObject⟩

/-- The `entries` hold scalars, and the amounts among them are the `amounts` of the
transaction. -/
theorem TransactionKind.scalar_of_mem_entries {kind : TransactionKind} :
    ∀ entry ∈ kind.entries, ∀ v ∈ entry.2,
      ∃ s, v = .scalar s ∧ s ≠ .pathSet [] ∧ ∀ a, s = .amount a → a ∈ kind.amounts := by
  cases kind with
  | payment destination amount destinationTag invoiceId sendMax deliverMin =>
    -- the amounts are the one and the two that may be there
    have hoptions : (∀ a, sendMax = some a → a = amount ∨ sendMax = some a ∨
      deliverMin = some a) ∧
        ∀ a, deliverMin = some a → a = amount ∨ sendMax = some a ∨ deliverMin = some a :=
      ⟨fun a h => .inr (.inl h), fun a h => .inr (.inr h)⟩
    simpa [entries, amounts] using hoptions
  | _ => simp [entries, amounts]

theorem TransactionKind.entries_canonical {kind : TransactionKind}
    (h : ∀ a ∈ kind.amounts, a.IsNormal) :
    ∀ entry ∈ kind.entries, ∀ v ∈ entry.2, v.Canonical := by
  intro entry hentry v hv
  obtain ⟨s, rfl, hne, hamount⟩ := scalar_of_mem_entries entry hentry v hv
  refine Value.canonical_scalar ?_ hne
  cases s with
  | amount a => exact h a (hamount a rfl)
  | _ => trivial

namespace Transaction

/-- The values of the `entries` of a normal transaction are `Canonical`. -/
theorem entries_canonical {tx : Transaction} (h : tx.IsNormal) :
    ∀ entry ∈ tx.entries, ∀ v ∈ entry.2, v.Canonical := by
  have hplain : ∀ s : Scalar, s.IsNormal → s ≠ .pathSet [] →
      ∀ v ∈ some (Value.scalar s), v.Canonical := by
    rintro s hs hne v ⟨⟩
    exact Value.canonical_scalar hs hne
  have hword : ∀ a : Option UInt32, ∀ v ∈ a.map fun b =>
      Value.scalar (.uint32 b), v.Canonical :=
    fun a => Value.canonical_of_mem_map fun b _ => ⟨trivial, by simp⟩
  rw [entries, List.forall_mem_append]
  refine ⟨?_, TransactionKind.entries_canonical h⟩
  simp only [List.forall_mem_cons, List.not_mem_nil, false_implies,
    implies_true, and_true]
  exact ⟨hplain _ trivial (by simp), hplain _ trivial (by simp),
    hplain _ trivial (by simp), hplain _ trivial (by simp), hplain _ trivial (by simp),
    hword _, hword _, hword _, hword _, memosValue_canonical tx.memos⟩

/-- The field tree `toObject` of a transaction that `IsNormal` is `Canonical`, so it can
be read. -/
theorem canonical_toObject {tx : Transaction} (h : tx.IsNormal) :
    Object.Canonical tx.toObject :=
  tx.madeOf_entries.canonical tx.entries_fields.2.2.2 (entries_canonical h)

end Transaction

/-! ## Reading back -/

/-- A memo is read by `ofObject` from any object with its `entries`. -/
theorem Memo.ofObject_eq_ok {m : Memo} {o : Object}
    (h : ∀ entry ∈ m.entries, get? o entry.1 = entry.2) : Memo.ofObject o = .ok m := by
  simp only [entries, List.forall_mem_cons] at h
  obtain ⟨htype, hdata, hformat, -⟩ := h
  rw [ofObject, memoType.bind_get htype, memoData.bind_get hdata,
    memoFormat.bind_get hformat]
  rfl

/-- The type-dependent part is read by `ofObject` from any tree with its `entries`. -/
theorem TransactionKind.ofObject_eq_ok {kind : TransactionKind} {o : Object}
    (h : ∀ entry ∈ kind.entries, get? o entry.1 = entry.2) :
    TransactionKind.ofObject o kind.name = .ok kind := by
  cases kind with
  | payment =>
    simp only [entries, List.forall_mem_cons] at h
    obtain ⟨hdestination, hamount, hdestinationTag, hinvoiceId, hsendMax,
      hdeliverMin, -⟩ := h
    show TransactionKind.ofObject o "Payment" = _
    rw [ofObject, if_pos rfl, destination.bind_require hdestination,
      amount.bind_require hamount, destinationTag.bind_get hdestinationTag,
      invoiceId.bind_get hinvoiceId, sendMax.bind_get hsendMax,
      deliverMin.bind_get hdeliverMin]
    rfl
  | accountSet =>
    simp only [entries, List.forall_mem_cons] at h
    obtain ⟨hsetFlag, hclearFlag, hdomain, hemailHash, htransferRate, htickSize, -⟩ := h
    show TransactionKind.ofObject o "AccountSet" = _
    rw [ofObject, if_neg (by decide), if_pos rfl, setFlag.bind_get hsetFlag,
      clearFlag.bind_get hclearFlag, domain.bind_get hdomain,
      emailHash.bind_get hemailHash, transferRate.bind_get htransferRate,
      tickSize.bind_get htickSize]
    rfl
  | setRegularKey =>
    simp only [entries, List.forall_mem_cons] at h
    obtain ⟨hregularKey, -⟩ := h
    show TransactionKind.ofObject o "SetRegularKey" = _
    rw [ofObject, if_neg (by decide), if_neg (by decide), if_pos rfl,
      regularKey.bind_get hregularKey]
    rfl
  | trustSet limit =>
    simp only [entries, List.forall_mem_cons] at h
    obtain ⟨hlimitAmount, hqualityIn, hqualityOut, -⟩ := h
    have hissued : requireIssued o "LimitAmount" .limitNotIssued = .ok limit := by
      rw [requireIssued, limitAmount.bind_require hlimitAmount]
      rfl
    show TransactionKind.ofObject o "TrustSet" = _
    rw [ofObject, if_neg (by decide), if_neg (by decide), if_neg (by decide),
      if_pos rfl, hissued]
    show (getNamedAs o "QualityIn" Value.uint32? >>= _) = _
    rw [qualityIn.bind_get hqualityIn, qualityOut.bind_get hqualityOut]
    rfl
  | offerCreate =>
    simp only [entries, List.forall_mem_cons] at h
    obtain ⟨htakerPays, htakerGets, hexpiration, hofferSequence, -⟩ := h
    show TransactionKind.ofObject o "OfferCreate" = _
    rw [ofObject, if_neg (by decide), if_neg (by decide), if_neg (by decide),
      if_neg (by decide), if_pos rfl, takerPays.bind_require htakerPays,
      takerGets.bind_require htakerGets, expiration.bind_get hexpiration,
      offerSequence.bind_get hofferSequence]
    rfl
  | offerCancel =>
    simp only [entries, List.forall_mem_cons] at h
    obtain ⟨hofferSequence, -⟩ := h
    show TransactionKind.ofObject o "OfferCancel" = _
    rw [ofObject, if_neg (by decide), if_neg (by decide), if_neg (by decide),
      if_neg (by decide), if_neg (by decide), if_pos rfl,
      offerSequence.bind_require hofferSequence]
    rfl

namespace Transaction

theorem feeOfObject_eq_ok {fee : Drops} {o : Object}
    (h : get? o Field.fee = some (.scalar (.amount (.native fee)))) :
    feeOfObject o = .ok fee := by
  rw [feeOfObject, TypedField.fee.bind_require h]
  rfl

/-- The memos are read by `memosOfObject` from the value of their field, or from none. -/
theorem memosOfObject_eq_ok {memos : List Memo} {o : Object}
    (h : get? o Field.memos = memosValue memos) : memosOfObject o = .ok memos := by
  have hname : FieldId.ofName? "Memos" = some Field.memos := by decide
  rw [memosOfObject, getNamed?, hname]
  simp only
  rw [h, memosValue]
  by_cases hmemos : memos = []
  · rw [if_pos hmemos, hmemos]
  · rw [if_neg hmemos]
    refine mapM_eq_ok.mpr (List.forall₂_map_left_iff.mpr (List.forall₂_same.mpr ?_))
    exact fun m _ => Memo.ofObject_eq_ok m.madeOf_entries.get?_eq

/-- The type is found by its code, so `kindOfObject` reads the type-dependent part. -/
theorem kindOfObject_eq_ok {kind : TransactionKind} {o : Object}
    (hcode : get? o Field.transactionType = some (.scalar (.uint16 kind.code)))
    (h : ∀ entry ∈ kind.entries, get? o entry.1 = entry.2) :
    kindOfObject o = .ok kind := by
  have hname : TransactionType.name? kind.code = some kind.name := by
    cases kind <;> rfl
  rw [kindOfObject, transactionType.bind_require hcode]
  simp only [hname]
  exact TransactionKind.ofObject_eq_ok h

/-- A transaction is read by `ofObject` from any tree with its `entries`. -/
theorem ofObject_eq_ok {tx : Transaction} {o : Object}
    (h : ∀ entry ∈ tx.entries, get? o entry.1 = entry.2) : ofObject o = .ok tx := by
  rw [entries, List.forall_mem_append] at h
  obtain ⟨hcommon, hkind⟩ := h
  simp only [List.forall_mem_cons] at hcommon
  obtain ⟨htransactionType, haccount, hfee, hsequence, hflags,
    hlastLedgerSequence, hsourceTag, hnetworkId, hticketSequence, hmemos, -⟩ := hcommon
  -- the flags are always set, but they need not be there to be read
  have hflags' : get? o Field.flags = (some tx.flags).map fun a => .scalar (.uint32 a) :=
    hflags
  rw [ofObject, kindOfObject_eq_ok htransactionType hkind, feeOfObject_eq_ok hfee,
    memosOfObject_eq_ok hmemos]
  show (requireNamed o "Account" Value.accountId? >>= _) = _
  rw [TypedField.account.bind_require haccount,
    TypedField.sequence.bind_require hsequence, TypedField.flags.bind_get hflags',
    TypedField.lastLedgerSequence.bind_get hlastLedgerSequence,
    TypedField.sourceTag.bind_get hsourceTag, TypedField.networkId.bind_get hnetworkId,
    TypedField.ticketSequence.bind_get hticketSequence]
  rfl

end Transaction

end XrpLedger
