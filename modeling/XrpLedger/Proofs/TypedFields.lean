import XrpLedger.Proofs.ObjectMap
import XrpLedger.Transaction

/-!
# Typed fields

A field that typed values go into and come out of, with what makes both ways agree: its
name is the name of its identity, the values that are put in are of the kind of the field,
and what is taken out is what was put in.

- `TypedField`: such a field.
- `TypedField.bind_set`, `TypedField.bind_setSome`: it is always set.
- `TypedField.bind_get`, `TypedField.bind_require`: it is read where it was set.
-/

namespace XrpLedger

/-- A value of the right kind is put by `setNamed` as by `insert`. -/
theorem Object.setNamed_eq_ok {name : String} {id : FieldId} {v : Value}
    (hname : FieldId.ofName? name = some id) (hfits : v.Fits id) (o : Object) :
    setNamed name v o = .ok (insert id v o) := by
  have hok : FieldId.ofName name = .ok id := by
    unfold FieldId.ofName
    rw [hname]
  rw [setNamed, putNamed, hok]
  simp only
  rw [put, if_pos hfits]

/-- A field of an object that holds values of one type. -/
structure TypedField (α : Type) where
  name : String
  id : FieldId
  make : α → Scalar
  view : Value → Option α
  named : FieldId.ofName? name = some id
  fits : ∀ a, (Value.scalar (make a)).Fits id
  view_eq_some : ∀ {v a}, view v = some a ↔ v = .scalar (make a)

namespace TypedField

open Object

variable {α β : Type} (field : TypedField α)

/-! ## Setting -/

/-- A value of the type of the field is always set by `setNamed`. -/
theorem set_eq_ok (a : α) (o : Object) :
    setNamed field.name (.scalar (field.make a)) o =
      .ok (insert field.id (.scalar (field.make a)) o) :=
  setNamed_eq_ok field.named (field.fits a) o

/-- An optional value of the type of the field is always set by `setSomeNamed`. -/
theorem setSome_eq_ok (a : Option α) (o : Object) :
    setSomeNamed field.name field.make a o =
    .ok (insertSome field.id field.make a o) := by
  cases a with
  | none => rfl
  | some a => exact field.set_eq_ok a o

/-- The field is set by `setNamed` and the program goes on. -/
theorem bind_set (a : α) (o : Object) (f : Object → Except CodecError β) :
    (setNamed field.name (.scalar (field.make a)) o >>= f) =
      f (insert field.id (.scalar (field.make a)) o) := by
  rw [field.set_eq_ok]
  rfl

/-- The field is set by `setSomeNamed`, if there is a value, and the program goes on. -/
theorem bind_setSome (a : Option α) (o : Object) (f : Object → Except CodecError β) :
    (setSomeNamed field.name field.make a o >>= f) =
    f (insertSome field.id field.make a o) := by
  rw [field.setSome_eq_ok]
  rfl

/-! ## Reading -/

variable {o : Object}

/-- What `make` puts in is what `view` takes out. -/
theorem view_make (a : α) : field.view (.scalar (field.make a)) = some a :=
  field.view_eq_some.mpr rfl

/-- What the field holds is read by `getNamedAs`, also that it holds nothing. -/
theorem get_eq_ok {a : Option α}
    (h : get? o field.id = a.map fun a => .scalar (field.make a)) :
    getNamedAs o field.name field.view = .ok a := by
  rw [getNamedAs, field.named]
  simp only
  rw [getAs, h]
  cases a with
  | none => rfl
  | some a =>
    simp only [Option.map_some]
    rw [field.view_make]

/-- What `getNamedAs` reads of a field is what it holds. -/
theorem get?_of_get {a : Option α} (h : getNamedAs o field.name field.view = .ok a) :
    get? o field.id = a.map fun a => .scalar (field.make a) := by
  rw [getNamedAs, field.named] at h
  simp only [getAs] at h
  split at h
  · next hnone =>
    cases h
    exact hnone
  · next v hv =>
    split at h
    · next b hb =>
      cases h
      rw [hv, field.view_eq_some.mp hb]
      rfl
    · cases h

/-- What `requireNamed` reads of a field is what it holds. -/
theorem get?_of_require {a : α} (h : requireNamed o field.name field.view = .ok a) :
    get? o field.id = some (.scalar (field.make a)) := by
  unfold requireNamed at h
  split at h
  · next b hget =>
    cases h
    exact field.get?_of_get hget
  · cases h
  · cases h

/-- The field is read by `getNamedAs` and the program goes on. -/
theorem bind_get {a : Option α}
    (h : get? o field.id = a.map fun a => .scalar (field.make a))
    (f : Option α → Except CodecError β) :
    (getNamedAs o field.name field.view >>= f) = f a := by
  rw [field.get_eq_ok h]
  rfl

/-- The field is read by `requireNamed`, if it holds a value, and the program goes on. -/
theorem bind_require {a : α} (h : get? o field.id = some (.scalar (field.make a)))
    (f : α → Except CodecError β) :
    (requireNamed o field.name field.view >>= f) = f a := by
  have hget : getNamedAs o field.name field.view = .ok (some a) := field.get_eq_ok h
  rw [requireNamed, hget]
  rfl

/-! ## Kinds -/

/-- A view that takes out what `make` put in, and nothing else. -/
theorem view_iff {make : α → Scalar} {view : Value → Option α}
    (hmake : ∀ a, view (.scalar (make a)) = some a)
    (hview : ∀ {v a}, view v = some a → v = .scalar (make a)) {v : Value} {a : α} :
    view v = some a ↔ v = .scalar (make a) := by
  constructor
  · exact hview
  · rintro rfl
    exact hmake a

section

variable (name : String) (id : FieldId) (named : FieldId.ofName? name = some id)

abbrev uint8 (hcode : FieldKind.uint8.code = id.kindCode) : TypedField UInt8 :=
  ⟨name, id, .uint8, Value.uint8?, named, fun _ => hcode,
    view_iff (fun _ => rfl) fun h => by
    unfold Value.uint8? at h
    split at h <;> cases h
    rfl⟩

abbrev uint16 (hcode : FieldKind.uint16.code = id.kindCode) : TypedField UInt16 :=
  ⟨name, id, .uint16, Value.uint16?, named, fun _ => hcode,
    view_iff (fun _ => rfl) fun h => by
    unfold Value.uint16? at h
    split at h <;> cases h
    rfl⟩

abbrev uint32 (hcode : FieldKind.uint32.code = id.kindCode) : TypedField UInt32 :=
  ⟨name, id, .uint32, Value.uint32?, named, fun _ => hcode,
    view_iff (fun _ => rfl) fun h => by
    unfold Value.uint32? at h
    split at h <;> cases h
    rfl⟩

abbrev hash128 (hcode : FieldKind.hash128.code = id.kindCode) : TypedField Hash128 :=
  ⟨name, id, .hash128, Value.hash128?, named, fun _ => hcode,
    view_iff (fun _ => rfl) fun h => by
    unfold Value.hash128? at h
    split at h <;> cases h
    rfl⟩

abbrev hash256 (hcode : FieldKind.hash256.code = id.kindCode) : TypedField Hash256 :=
  ⟨name, id, .hash256, Value.hash256?, named, fun _ => hcode,
    view_iff (fun _ => rfl) fun h => by
    unfold Value.hash256? at h
    split at h <;> cases h
    rfl⟩

abbrev amountOf (hcode : FieldKind.amount.code = id.kindCode) : TypedField Amount :=
  ⟨name, id, .amount, Value.amount?, named, fun _ => hcode,
    view_iff (fun _ => rfl) fun h => by
    unfold Value.amount? at h
    split at h <;> cases h
    rfl⟩

abbrev blob (hcode : FieldKind.blob.code = id.kindCode) : TypedField Bytes :=
  ⟨name, id, .blob, Value.blob?, named, fun _ => hcode,
    view_iff (fun _ => rfl) fun h => by
    unfold Value.blob? at h
    split at h <;> cases h
    rfl⟩

abbrev accountId (hcode : FieldKind.accountId.code = id.kindCode) :
    TypedField AccountId :=
  ⟨name, id, .accountId, Value.accountId?, named, fun _ => hcode,
    view_iff (fun _ => rfl) fun h => by
    unfold Value.accountId? at h
    split at h <;> cases h
    rfl⟩

end

/-! ## Fields of transactions -/

abbrev memoType := blob "MemoType" Field.memoType (by decide) rfl
abbrev memoData := blob "MemoData" Field.memoData (by decide) rfl
abbrev memoFormat := blob "MemoFormat" Field.memoFormat (by decide) rfl

abbrev transactionType := uint16 "TransactionType" Field.transactionType (by decide) rfl
abbrev account := accountId "Account" Field.account (by decide) rfl
abbrev fee := amountOf "Fee" Field.fee (by decide) rfl
abbrev sequence := uint32 "Sequence" Field.sequence (by decide) rfl
abbrev flags := uint32 "Flags" Field.flags (by decide) rfl
abbrev lastLedgerSequence :=
  uint32 "LastLedgerSequence" Field.lastLedgerSequence (by decide) rfl
abbrev sourceTag := uint32 "SourceTag" Field.sourceTag (by decide) rfl
abbrev networkId := uint32 "NetworkID" Field.networkId (by decide) rfl
abbrev ticketSequence := uint32 "TicketSequence" Field.ticketSequence (by decide) rfl

abbrev destination := accountId "Destination" Field.destination (by decide) rfl
abbrev amount := amountOf "Amount" Field.amount (by decide) rfl
abbrev destinationTag := uint32 "DestinationTag" Field.destinationTag (by decide) rfl
abbrev invoiceId := hash256 "InvoiceID" Field.invoiceId (by decide) rfl
abbrev sendMax := amountOf "SendMax" Field.sendMax (by decide) rfl
abbrev deliverMin := amountOf "DeliverMin" Field.deliverMin (by decide) rfl

abbrev setFlag := uint32 "SetFlag" Field.setFlag (by decide) rfl
abbrev clearFlag := uint32 "ClearFlag" Field.clearFlag (by decide) rfl
abbrev domain := blob "Domain" Field.domain (by decide) rfl
abbrev emailHash := hash128 "EmailHash" Field.emailHash (by decide) rfl
abbrev transferRate := uint32 "TransferRate" Field.transferRate (by decide) rfl
abbrev tickSize := uint8 "TickSize" Field.tickSize (by decide) rfl

abbrev regularKey := accountId "RegularKey" Field.regularKey (by decide) rfl

abbrev limitAmount := amountOf "LimitAmount" Field.limitAmount (by decide) rfl
abbrev qualityIn := uint32 "QualityIn" Field.qualityIn (by decide) rfl
abbrev qualityOut := uint32 "QualityOut" Field.qualityOut (by decide) rfl

abbrev takerPays := amountOf "TakerPays" Field.takerPays (by decide) rfl
abbrev takerGets := amountOf "TakerGets" Field.takerGets (by decide) rfl
abbrev expiration := uint32 "Expiration" Field.expiration (by decide) rfl
abbrev offerSequence := uint32 "OfferSequence" Field.offerSequence (by decide) rfl

/-! ## Fields of account roots -/

abbrev ledgerEntryType := uint16 "LedgerEntryType" Field.ledgerEntryType (by decide) rfl
abbrev balance := amountOf "Balance" Field.balance (by decide) rfl
abbrev ownerCount := uint32 "OwnerCount" Field.ownerCount (by decide) rfl
abbrev previousTxnId := hash256 "PreviousTxnID" Field.previousTxnId (by decide) rfl
abbrev previousTxnLgrSeq :=
  uint32 "PreviousTxnLgrSeq" Field.previousTxnLgrSeq (by decide) rfl
abbrev accountTxnId := hash256 "AccountTxnID" Field.accountTxnId (by decide) rfl
abbrev messageKey := blob "MessageKey" Field.messageKey (by decide) rfl

end TypedField

end XrpLedger
