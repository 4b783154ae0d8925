import XrpLedger.Field.Id

/-!
# The field table

What the ledger knows about its fields, transaction types and ledger entry types.

- `FieldInfo`, `FieldInfo.table`: the known fields with their names.
- `FieldId.ofName?`, `FieldId.name?`: from a name to the identity and back.
- `FieldId.label`: the name, or a spelling of the two codes for an identity that has none.
- `FieldId.isSigningField`: whether a signature covers the field.
- `TransactionType`, `LedgerEntryType`: codes to names and back.
-/

namespace XrpLedger

/-- A known field. -/
structure FieldInfo where
  name : String
  kind : FieldKind
  fieldCode : UInt8
  /-- Whether a signature covers the field. -/
  isSigningField : Bool

namespace FieldInfo

/-- The identity of a known field. -/
def id (info : FieldInfo) : FieldId :=
  ⟨info.kind.code, info.fieldCode⟩

/-- A field that a signature covers. -/
def signed (name : String) (kind : FieldKind) (fieldCode : UInt8) : FieldInfo :=
  ⟨name, kind, fieldCode, true⟩

/-- A field that holds a signature, and that no signature covers. -/
def unsigned (name : String) (kind : FieldKind) (fieldCode : UInt8) : FieldInfo :=
  ⟨name, kind, fieldCode, false⟩

/-- The known fields. -/
def table : List FieldInfo := [
    signed "LedgerEntryType" .uint16 1,
    signed "TransactionType" .uint16 2,
    signed "SignerWeight" .uint16 3,
    signed "TransferFee" .uint16 4,
    signed "Version" .uint16 16,
    signed "NetworkID" .uint32 1,
    signed "Flags" .uint32 2,
    signed "SourceTag" .uint32 3,
    signed "Sequence" .uint32 4,
    signed "PreviousTxnLgrSeq" .uint32 5,
    signed "LedgerSequence" .uint32 6,
    signed "CloseTime" .uint32 7,
    signed "ParentCloseTime" .uint32 8,
    signed "SigningTime" .uint32 9,
    signed "Expiration" .uint32 10,
    signed "TransferRate" .uint32 11,
    signed "WalletSize" .uint32 12,
    signed "OwnerCount" .uint32 13,
    signed "DestinationTag" .uint32 14,
    signed "HighQualityIn" .uint32 16,
    signed "HighQualityOut" .uint32 17,
    signed "LowQualityIn" .uint32 18,
    signed "LowQualityOut" .uint32 19,
    signed "QualityIn" .uint32 20,
    signed "QualityOut" .uint32 21,
    signed "StampEscrow" .uint32 22,
    signed "BondAmount" .uint32 23,
    signed "LoadFee" .uint32 24,
    signed "OfferSequence" .uint32 25,
    signed "FirstLedgerSequence" .uint32 26,
    signed "LastLedgerSequence" .uint32 27,
    signed "TransactionIndex" .uint32 28,
    signed "OperationLimit" .uint32 29,
    signed "ReferenceFeeUnits" .uint32 30,
    signed "ReserveBase" .uint32 31,
    signed "ReserveIncrement" .uint32 32,
    signed "SetFlag" .uint32 33,
    signed "ClearFlag" .uint32 34,
    signed "SignerQuorum" .uint32 35,
    signed "CancelAfter" .uint32 36,
    signed "FinishAfter" .uint32 37,
    signed "SignerListID" .uint32 38,
    signed "SettleDelay" .uint32 39,
    signed "TicketCount" .uint32 40,
    signed "TicketSequence" .uint32 41,
    signed "IndexNext" .uint64 1,
    signed "IndexPrevious" .uint64 2,
    signed "BookNode" .uint64 3,
    signed "OwnerNode" .uint64 4,
    signed "BaseFee" .uint64 5,
    signed "ExchangeRate" .uint64 6,
    signed "LowNode" .uint64 7,
    signed "HighNode" .uint64 8,
    signed "DestinationNode" .uint64 9,
    signed "Cookie" .uint64 10,
    signed "EmailHash" .hash128 1,
    signed "LedgerHash" .hash256 1,
    signed "ParentHash" .hash256 2,
    signed "TransactionHash" .hash256 3,
    signed "AccountHash" .hash256 4,
    signed "PreviousTxnID" .hash256 5,
    signed "LedgerIndex" .hash256 6,
    signed "WalletLocator" .hash256 7,
    signed "RootIndex" .hash256 8,
    signed "AccountTxnID" .hash256 9,
    signed "BookDirectory" .hash256 16,
    signed "InvoiceID" .hash256 17,
    signed "Nickname" .hash256 18,
    signed "Amendment" .hash256 19,
    signed "Digest" .hash256 21,
    signed "Channel" .hash256 22,
    signed "ConsensusHash" .hash256 23,
    signed "CheckID" .hash256 24,
    signed "ValidatedHash" .hash256 25,
    signed "Amount" .amount 1,
    signed "Balance" .amount 2,
    signed "LimitAmount" .amount 3,
    signed "TakerPays" .amount 4,
    signed "TakerGets" .amount 5,
    signed "LowLimit" .amount 6,
    signed "HighLimit" .amount 7,
    signed "Fee" .amount 8,
    signed "SendMax" .amount 9,
    signed "DeliverMin" .amount 10,
    signed "MinimumOffer" .amount 16,
    signed "RippleEscrow" .amount 17,
    signed "DeliveredAmount" .amount 18,
    signed "PublicKey" .blob 1,
    signed "MessageKey" .blob 2,
    signed "SigningPubKey" .blob 3,
    unsigned "TxnSignature" .blob 4,
    unsigned "Signature" .blob 6,
    signed "Domain" .blob 7,
    signed "FundCode" .blob 8,
    signed "RemoveCode" .blob 9,
    signed "ExpireCode" .blob 10,
    signed "CreateCode" .blob 11,
    signed "MemoType" .blob 12,
    signed "MemoData" .blob 13,
    signed "MemoFormat" .blob 14,
    signed "Fulfillment" .blob 16,
    signed "Condition" .blob 17,
    unsigned "MasterSignature" .blob 18,
    signed "Account" .accountId 1,
    signed "Owner" .accountId 2,
    signed "Destination" .accountId 3,
    signed "Issuer" .accountId 4,
    signed "Authorize" .accountId 5,
    signed "Unauthorize" .accountId 6,
    signed "RegularKey" .accountId 8,
    signed "ObjectEndMarker" .object 1,
    signed "TransactionMetaData" .object 2,
    signed "CreatedNode" .object 3,
    signed "DeletedNode" .object 4,
    signed "ModifiedNode" .object 5,
    signed "PreviousFields" .object 6,
    signed "FinalFields" .object 7,
    signed "NewFields" .object 8,
    signed "TemplateEntry" .object 9,
    signed "Memo" .object 10,
    signed "SignerEntry" .object 11,
    signed "Signer" .object 16,
    signed "Majority" .object 18,
    signed "DisabledValidator" .object 19,
    signed "ArrayEndMarker" .array 1,
    unsigned "Signers" .array 3,
    signed "SignerEntries" .array 4,
    signed "Template" .array 5,
    signed "Necessary" .array 6,
    signed "Sufficient" .array 7,
    signed "AffectedNodes" .array 8,
    signed "Memos" .array 9,
    signed "Majorities" .array 16,
    signed "DisabledValidators" .array 17,
    signed "CloseResolution" .uint8 1,
    signed "Method" .uint8 2,
    signed "TransactionResult" .uint8 3,
    signed "TickSize" .uint8 16,
    signed "UNLModifyDisabling" .uint8 17,
    signed "TakerPaysCurrency" .hash160 1,
    signed "TakerPaysIssuer" .hash160 2,
    signed "TakerGetsCurrency" .hash160 3,
    signed "TakerGetsIssuer" .hash160 4,
    signed "Paths" .pathSet 1,
    signed "Indexes" .vector256 1,
    signed "Hashes" .vector256 2,
    signed "Amendments" .vector256 3
  ]

/-- The known field with a name. -/
def byName? (name : String) : Option FieldInfo :=
  table.find? fun info => info.name == name

/-- The known field with an identity. -/
def byId? (id : FieldId) : Option FieldInfo :=
  table.find? fun info => info.id == id

/-- The known fields of a kind, by ascending field code. -/
def ofKind (kind : FieldKind) : List FieldInfo :=
  (table.filter fun info => info.kind == kind).mergeSort fun a b =>
    a.fieldCode ≤ b.fieldCode

end FieldInfo

namespace FieldId

/-- The identity of the known field with a name. -/
def ofName? (name : String) : Option FieldId :=
  (FieldInfo.byName? name).map FieldInfo.id

/-- The name of a known field. -/
def name? (id : FieldId) : Option String :=
  (FieldInfo.byId? id).map FieldInfo.name

/-- The name of a field, or its two codes if it is not known. -/
def label (id : FieldId) : String :=
  match id.name? with
  | some name => name
  | none =>
    "Field(" ++ toString id.kindCode.toNat ++ ", " ++ toString id.fieldCode.toNat ++ ")"

/-- The identity as it is shown in diagnostics. -/
def describe (id : FieldId) : String :=
  "FieldId(" ++ id.label ++ ")"

/-- Whether a signature covers the field. Unknown fields are covered. -/
def isSigningField (id : FieldId) : Bool :=
  match FieldInfo.byId? id with
  | some info => info.isSigningField
  | none => true

end FieldId

/-! ## Codes with names -/

/-- The code with a name in a table of names. -/
def codeOfName? (table : List (String × UInt16)) (name : String) : Option UInt16 :=
  (table.find? fun row => row.1 == name).map Prod.snd

/-- The name of a code in a table of names. -/
def nameOfCode? (table : List (String × UInt16)) (code : UInt16) : Option String :=
  (table.find? fun row => row.2 == code).map Prod.fst

namespace TransactionType

/-- The transaction types. -/
def table : List (String × UInt16) := [
    ("Payment", 0),
    ("EscrowCreate", 1),
    ("EscrowFinish", 2),
    ("AccountSet", 3),
    ("EscrowCancel", 4),
    ("SetRegularKey", 5),
    ("OfferCreate", 7),
    ("OfferCancel", 8),
    ("TicketCreate", 10),
    ("SignerListSet", 12),
    ("PaymentChannelCreate", 13),
    ("PaymentChannelFund", 14),
    ("PaymentChannelClaim", 15),
    ("CheckCreate", 16),
    ("CheckCash", 17),
    ("CheckCancel", 18),
    ("DepositPreauth", 19),
    ("TrustSet", 20),
    ("AccountDelete", 21),
    ("EnableAmendment", 100),
    ("SetFee", 101),
    ("UNLModify", 102)
  ]

/-- The code of a transaction type. -/
def code? (name : String) : Option UInt16 :=
  codeOfName? table name

/-- The name of a transaction type. -/
def name? (code : UInt16) : Option String :=
  nameOfCode? table code

end TransactionType

namespace LedgerEntryType

/-- The ledger entry types. -/
def table : List (String × UInt16) := [
    ("Check", 0x0043),
    ("NegativeUNL", 0x004E),
    ("SignerList", 0x0053),
    ("Ticket", 0x0054),
    ("AccountRoot", 0x0061),
    ("DirectoryNode", 0x0064),
    ("Amendments", 0x0066),
    ("LedgerHashes", 0x0068),
    ("Offer", 0x006F),
    ("DepositPreauth", 0x0070),
    ("RippleState", 0x0072),
    ("FeeSettings", 0x0073),
    ("Escrow", 0x0075),
    ("PayChannel", 0x0078)
  ]

/-- The code of a ledger entry type. -/
def code? (name : String) : Option UInt16 :=
  codeOfName? table name

/-- The name of a ledger entry type. -/
def name? (code : UInt16) : Option String :=
  nameOfCode? table code

end LedgerEntryType

end XrpLedger
