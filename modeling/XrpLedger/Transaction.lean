import XrpLedger.Signing

/-!
# Typed transactions

A transaction has an account, a fee, a sequence number and a few options, and a part that
depends on its type.

- `Memo`, `TransactionKind`, `Transaction`: the types.
- `Transaction.lower`, `Transaction.toObject`: the field tree of a transaction, with the
  fields set by name under all checks, and directly.
- `Transaction.ofObject`: the transaction of a field tree.
- `Transaction.sign`: the signed form of a transaction.
-/

namespace XrpLedger

/-- A note attached to a transaction. -/
structure Memo where
  type : Option Bytes
  data : Option Bytes
  format : Option Bytes
  deriving DecidableEq

/-- The part of a transaction that depends on its type. -/
inductive TransactionKind where
  | payment (destination : AccountId) (amount : Amount) (destinationTag : Option UInt32)
      (invoiceId : Option Hash256) (sendMax deliverMin : Option Amount)
  | accountSet (setFlag clearFlag : Option UInt32) (domain : Option Bytes)
      (emailHash : Option Hash128) (transferRate : Option UInt32)
      (tickSize : Option UInt8)
  /-- Without a key, the regular key is removed. -/
  | setRegularKey (regularKey : Option AccountId)
  | trustSet (limitAmount : IssuedAmount) (qualityIn qualityOut : Option UInt32)
  | offerCreate (takerPays takerGets : Amount) (expiration offerSequence : Option UInt32)
  | offerCancel (offerSequence : UInt32)
  deriving DecidableEq

/-- A transaction. -/
structure Transaction where
  account : AccountId
  fee : Drops
  sequence : UInt32
  flags : UInt32
  lastLedgerSequence : Option UInt32
  sourceTag : Option UInt32
  networkId : Option UInt32
  ticketSequence : Option UInt32
  memos : List Memo
  kind : TransactionKind
  deriving DecidableEq

namespace Memo

/-- The memo with a type and data in UTF-8. -/
def ofText (type data : String) : Memo :=
  ⟨some (Bytes.ofText type), some (Bytes.ofText data), none⟩

/-- The field tree of a memo. -/
def toObject (m : Memo) : Object :=
  Object.insertSome Field.memoFormat .blob m.format
    (Object.insertSome Field.memoData .blob m.data
      (Object.insertSome Field.memoType .blob m.type []))

/-- The field tree of a memo, set field by field. -/
def lower (m : Memo) : Except CodecError Object := do
  let o ← Object.setSomeNamed "MemoType" .blob m.type []
  let o ← Object.setSomeNamed "MemoData" .blob m.data o
  Object.setSomeNamed "MemoFormat" .blob m.format o

/-- The memo of a field tree. -/
def ofObject (o : Object) : Except CodecError Memo := do
  let type ← Object.getNamedAs o "MemoType" Value.blob?
  let data ← Object.getNamedAs o "MemoData" Value.blob?
  let format ← Object.getNamedAs o "MemoFormat" Value.blob?
  return ⟨type, data, format⟩

end Memo

namespace TransactionKind

/-- The name of a transaction's type. -/
def name : TransactionKind → String
  | .payment .. => "Payment"
  | .accountSet .. => "AccountSet"
  | .setRegularKey .. => "SetRegularKey"
  | .trustSet .. => "TrustSet"
  | .offerCreate .. => "OfferCreate"
  | .offerCancel .. => "OfferCancel"

/-- The code of a transaction's type. -/
def code : TransactionKind → UInt16
  | .payment .. => 0
  | .accountSet .. => 3
  | .setRegularKey .. => 5
  | .trustSet .. => 20
  | .offerCreate .. => 7
  | .offerCancel .. => 8

/-- The object with the fields of the type-dependent part. -/
def addTo (o : Object) : TransactionKind → Object
  | .payment destination amount destinationTag invoiceId sendMax deliverMin =>
    Object.insertSome Field.deliverMin .amount deliverMin <|
    Object.insertSome Field.sendMax .amount sendMax <|
    Object.insertSome Field.invoiceId .hash256 invoiceId <|
    Object.insertSome Field.destinationTag .uint32 destinationTag <|
    Object.insert Field.amount (.scalar (.amount amount)) <|
    Object.insert Field.destination (.scalar (.accountId destination)) o
  | .accountSet setFlag clearFlag domain emailHash transferRate tickSize =>
    Object.insertSome Field.tickSize .uint8 tickSize <|
    Object.insertSome Field.transferRate .uint32 transferRate <|
    Object.insertSome Field.emailHash .hash128 emailHash <|
    Object.insertSome Field.domain .blob domain <|
    Object.insertSome Field.clearFlag .uint32 clearFlag <|
    Object.insertSome Field.setFlag .uint32 setFlag o
  | .setRegularKey regularKey =>
    Object.insertSome Field.regularKey .accountId regularKey o
  | .trustSet limitAmount qualityIn qualityOut =>
    Object.insertSome Field.qualityOut .uint32 qualityOut <|
    Object.insertSome Field.qualityIn .uint32 qualityIn <|
    Object.insert Field.limitAmount (.scalar (.amount (.issued limitAmount))) o
  | .offerCreate takerPays takerGets expiration offerSequence =>
    Object.insertSome Field.offerSequence .uint32 offerSequence <|
    Object.insertSome Field.expiration .uint32 expiration <|
    Object.insert Field.takerGets (.scalar (.amount takerGets)) <|
    Object.insert Field.takerPays (.scalar (.amount takerPays)) o
  | .offerCancel offerSequence =>
    Object.insert Field.offerSequence (.scalar (.uint32 offerSequence)) o

/-- Sets the fields of the type-dependent part. -/
def lower (o : Object) : TransactionKind → Except CodecError Object
  | .payment destination amount destinationTag invoiceId sendMax deliverMin => do
    let o ← Object.setNamed "Destination" (.scalar (.accountId destination)) o
    let o ← Object.setNamed "Amount" (.scalar (.amount amount)) o
    let o ← Object.setSomeNamed "DestinationTag" .uint32 destinationTag o
    let o ← Object.setSomeNamed "InvoiceID" .hash256 invoiceId o
    let o ← Object.setSomeNamed "SendMax" .amount sendMax o
    Object.setSomeNamed "DeliverMin" .amount deliverMin o
  | .accountSet setFlag clearFlag domain emailHash transferRate tickSize => do
    let o ← Object.setSomeNamed "SetFlag" .uint32 setFlag o
    let o ← Object.setSomeNamed "ClearFlag" .uint32 clearFlag o
    let o ← Object.setSomeNamed "Domain" .blob domain o
    let o ← Object.setSomeNamed "EmailHash" .hash128 emailHash o
    let o ← Object.setSomeNamed "TransferRate" .uint32 transferRate o
    Object.setSomeNamed "TickSize" .uint8 tickSize o
  | .setRegularKey regularKey =>
    Object.setSomeNamed "RegularKey" .accountId regularKey o
  | .trustSet limitAmount qualityIn qualityOut => do
    let o ← Object.setNamed "LimitAmount" (.scalar (.amount (.issued limitAmount))) o
    let o ← Object.setSomeNamed "QualityIn" .uint32 qualityIn o
    Object.setSomeNamed "QualityOut" .uint32 qualityOut o
  | .offerCreate takerPays takerGets expiration offerSequence => do
    let o ← Object.setNamed "TakerPays" (.scalar (.amount takerPays)) o
    let o ← Object.setNamed "TakerGets" (.scalar (.amount takerGets)) o
    let o ← Object.setSomeNamed "Expiration" .uint32 expiration o
    Object.setSomeNamed "OfferSequence" .uint32 offerSequence o
  | .offerCancel offerSequence =>
    Object.setNamed "OfferSequence" (.scalar (.uint32 offerSequence)) o

/-- The issued amount of the field with a name. -/
def requireIssued (o : Object) (name : String) (refusal : AmountFault) :
    Except CodecError IssuedAmount := do
  match ← Object.requireNamed o name Value.amount? with
  | .issued a => return a
  | .native _ => throw (.invalidAmount refusal)

/-- The type-dependent part of a field tree, field by field. -/
def ofObject (o : Object) (name : String) : Except CodecError TransactionKind :=
  if name = "Payment" then do
    let destination ← Object.requireNamed o "Destination" Value.accountId?
    let amount ← Object.requireNamed o "Amount" Value.amount?
    let destinationTag ← Object.getNamedAs o "DestinationTag" Value.uint32?
    let invoiceId ← Object.getNamedAs o "InvoiceID" Value.hash256?
    let sendMax ← Object.getNamedAs o "SendMax" Value.amount?
    let deliverMin ← Object.getNamedAs o "DeliverMin" Value.amount?
    return .payment destination amount destinationTag invoiceId sendMax deliverMin
  else if name = "AccountSet" then do
    let setFlag ← Object.getNamedAs o "SetFlag" Value.uint32?
    let clearFlag ← Object.getNamedAs o "ClearFlag" Value.uint32?
    let domain ← Object.getNamedAs o "Domain" Value.blob?
    let emailHash ← Object.getNamedAs o "EmailHash" Value.hash128?
    let transferRate ← Object.getNamedAs o "TransferRate" Value.uint32?
    let tickSize ← Object.getNamedAs o "TickSize" Value.uint8?
    return .accountSet setFlag clearFlag domain emailHash transferRate tickSize
  else if name = "SetRegularKey" then do
    let regularKey ← Object.getNamedAs o "RegularKey" Value.accountId?
    return .setRegularKey regularKey
  else if name = "TrustSet" then do
    let limitAmount ← requireIssued o "LimitAmount" .limitNotIssued
    let qualityIn ← Object.getNamedAs o "QualityIn" Value.uint32?
    let qualityOut ← Object.getNamedAs o "QualityOut" Value.uint32?
    return .trustSet limitAmount qualityIn qualityOut
  else if name = "OfferCreate" then do
    let takerPays ← Object.requireNamed o "TakerPays" Value.amount?
    let takerGets ← Object.requireNamed o "TakerGets" Value.amount?
    let expiration ← Object.getNamedAs o "Expiration" Value.uint32?
    let offerSequence ← Object.getNamedAs o "OfferSequence" Value.uint32?
    return .offerCreate takerPays takerGets expiration offerSequence
  else if name = "OfferCancel" then do
    let offerSequence ← Object.requireNamed o "OfferSequence" Value.uint32?
    return .offerCancel offerSequence
  else .error (.unknownTransactionType name)

end TransactionKind

namespace Transaction

/-- A transaction without flags and options. -/
def make (account : AccountId) (fee : Drops) (sequence : UInt32)
    (kind : TransactionKind) :
    Transaction :=
  ⟨account, fee, sequence, 0, none, none, none, none, [], kind⟩

/-- A payment without options. -/
def payment (account destination : AccountId) (amount : Amount) (fee : Drops)
    (sequence : UInt32) :
    Transaction :=
  make account fee sequence (.payment destination amount none none none none)

/-- The name of a transaction's type. -/
def typeName (tx : Transaction) : String :=
  tx.kind.name

/-- The object with the memos of a transaction, if it has any. -/
def addMemos (memos : List Memo) (o : Object) : Object :=
  if memos = [] then o
  else Object.insert Field.memos (.array (memos.map fun m => (Field.memo, m.toObject))) o

/-- The fields that every transaction has. -/
def commonPart (tx : Transaction) : Object :=
  addMemos tx.memos <|
  Object.insertSome Field.ticketSequence .uint32 tx.ticketSequence <|
  Object.insertSome Field.networkId .uint32 tx.networkId <|
  Object.insertSome Field.sourceTag .uint32 tx.sourceTag <|
  Object.insertSome Field.lastLedgerSequence .uint32 tx.lastLedgerSequence <|
  Object.insert Field.flags (.scalar (.uint32 tx.flags)) <|
  Object.insert Field.sequence (.scalar (.uint32 tx.sequence)) <|
  Object.insert Field.fee (.scalar (.amount (.native tx.fee))) <|
  Object.insert Field.account (.scalar (.accountId tx.account)) <|
  Object.insert Field.transactionType (.scalar (.uint16 tx.kind.code)) []

/-- The field tree of a transaction. -/
def toObject (tx : Transaction) : Object :=
  tx.kind.addTo tx.commonPart

/-- The elements of the memos, each wrapped as one. -/
def lowerMemos (memos : List Memo) : Except CodecError Elements := do
  let id ← FieldId.ofName "Memo"
  memos.mapM fun m => do
    let o ← m.lower
    return (id, o)

/-- Sets the memos of a transaction, if it has any. -/
def setMemos (memos : List Memo) (o : Object) : Except CodecError Object :=
  if memos = [] then .ok o
  else do
    let elements ← lowerMemos memos
    Object.setNamed "Memos" (.array elements) o

/-- Sets the fields that every transaction has. -/
def lowerCommon (tx : Transaction) (code : UInt16) : Except CodecError Object := do
  let o ← Object.setNamed "TransactionType" (.scalar (.uint16 code)) []
  let o ← Object.setNamed "Account" (.scalar (.accountId tx.account)) o
  let o ← Object.setNamed "Fee" (.scalar (.amount (.native tx.fee))) o
  let o ← Object.setNamed "Sequence" (.scalar (.uint32 tx.sequence)) o
  let o ← Object.setNamed "Flags" (.scalar (.uint32 tx.flags)) o
  let o ← Object.setSomeNamed "LastLedgerSequence" .uint32 tx.lastLedgerSequence o
  let o ← Object.setSomeNamed "SourceTag" .uint32 tx.sourceTag o
  let o ← Object.setSomeNamed "NetworkID" .uint32 tx.networkId o
  let o ← Object.setSomeNamed "TicketSequence" .uint32 tx.ticketSequence o
  setMemos tx.memos o

/-- The field tree of a transaction, set field by field. -/
def lower (tx : Transaction) : Except CodecError Object := do
  match TransactionType.code? tx.typeName with
  | none => throw (.unknownTransactionType tx.typeName)
  | some code =>
    let o ← tx.lowerCommon code
    tx.kind.lower o

/-- The native amount of the fee field. -/
def feeOfObject (o : Object) : Except CodecError Drops := do
  match ← Object.requireNamed o "Fee" Value.amount? with
  | .native d => return d
  | .issued _ => throw (.invalidAmount .feeNotNative)

/-- The memos of a field tree; the fields that wrap them do not matter. -/
def memosOfObject (o : Object) : Except CodecError (List Memo) :=
  match Object.getNamed? o "Memos" with
  | some (.array elements) => elements.mapM fun element => Memo.ofObject element.2
  | _ => .ok []

/-- The type-dependent part of a field tree. -/
def kindOfObject (o : Object) : Except CodecError TransactionKind := do
  let code ← Object.requireNamed o "TransactionType" Value.uint16?
  match TransactionType.name? code with
  | some name => TransactionKind.ofObject o name
  | none => throw (.unknownTransactionType (toString code.toNat))

/-- The transaction of a field tree. Fields that the type does not know are ignored. -/
def ofObject (o : Object) : Except CodecError Transaction := do
  let kind ← kindOfObject o
  let fee ← feeOfObject o
  let memos ← memosOfObject o
  let account ← Object.requireNamed o "Account" Value.accountId?
  let sequence ← Object.requireNamed o "Sequence" Value.uint32?
  let flags ← Object.getNamedAs o "Flags" Value.uint32?
  let lastLedgerSequence ← Object.getNamedAs o "LastLedgerSequence" Value.uint32?
  let sourceTag ← Object.getNamedAs o "SourceTag" Value.uint32?
  let networkId ← Object.getNamedAs o "NetworkID" Value.uint32?
  let ticketSequence ← Object.getNamedAs o "TicketSequence" Value.uint32?
  return ⟨account, fee, sequence, flags.getD 0, lastLedgerSequence, sourceTag, networkId,
    ticketSequence, memos, kind⟩

/-- The JSON form of a transaction. -/
def toJson (tx : Transaction) : Json :=
  Object.toJson tx.toObject

/-- The signed form of a transaction. -/
def sign (tx : Transaction) (pair : KeyPair) :
    Except CodecError Signing.SignedTransaction := do
  let o ← tx.lower
  Signing.sign o pair

end Transaction

end XrpLedger
