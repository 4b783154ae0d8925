import XrpLedger.Hash.Sha512
import XrpLedger.Tree.Basic
import XrpLedger.Wire.Reader
import XrpLedger.Wire.Writer

/-!
# Account roots

The ledger keeps one root entry for each account.

- `AccountRoot`: the entry, with `ofObject` and `decode`.
- `AccountRoot.lower`, `AccountRoot.toObject`: its field tree, with the fields set by name
  under all checks, and directly.
- `AccountRoot.index`: the identifier of the entry.
- `AccountFlag`: the flags of an account.
-/

namespace XrpLedger

/-- A flag of an account. -/
inductive AccountFlag where
  | passwordSpent
  | requireDestTag
  | requireAuth
  | disallowXrp
  | disableMaster
  | noFreeze
  | globalFreeze
  | defaultRipple
  | depositAuth
  deriving DecidableEq

namespace AccountFlag

/-- Every flag, by ascending bit. -/
def all : List AccountFlag :=
  [.passwordSpent, .requireDestTag, .requireAuth, .disallowXrp, .disableMaster, .noFreeze,
    .globalFreeze, .defaultRipple, .depositAuth]

/-- The bit of a flag. -/
def bit : AccountFlag → UInt32
  | .passwordSpent => 0x00010000
  | .requireDestTag => 0x00020000
  | .requireAuth => 0x00040000
  | .disallowXrp => 0x00080000
  | .disableMaster => 0x00100000
  | .noFreeze => 0x00200000
  | .globalFreeze => 0x00400000
  | .defaultRipple => 0x00800000
  | .depositAuth => 0x01000000

/-- The name of a flag. -/
def name : AccountFlag → String
  | .passwordSpent => "PASSWORD_SPENT"
  | .requireDestTag => "REQUIRE_DEST_TAG"
  | .requireAuth => "REQUIRE_AUTH"
  | .disallowXrp => "DISALLOW_XRP"
  | .disableMaster => "DISABLE_MASTER"
  | .noFreeze => "NO_FREEZE"
  | .globalFreeze => "GLOBAL_FREEZE"
  | .defaultRipple => "DEFAULT_RIPPLE"
  | .depositAuth => "DEPOSIT_AUTH"

end AccountFlag

/-- The root entry of an account. -/
structure AccountRoot where
  account : AccountId
  balance : Drops
  flags : UInt32
  ownerCount : UInt32
  previousTxnId : Hash256
  previousTxnLgrSeq : UInt32
  sequence : UInt32
  accountTxnId : Option Hash256
  domain : Option Bytes
  emailHash : Option Hash128
  messageKey : Option Bytes
  regularKey : Option AccountId
  tickSize : Option UInt8
  transferRate : Option UInt32
  deriving DecidableEq

namespace AccountRoot

/-- The entry type of account roots. -/
def entryType : UInt16 := 0x0061

/-- The name of an entry type, or its code if it has none. -/
def entryTypeLabel (code : UInt16) : String :=
  match LedgerEntryType.name? code with
  | some name => name
  | none => "0x" ++ Text.Hex.word 2 code.toNat

/-- Refuses a field tree of another entry type. -/
def checkEntryType (o : Object) : Except CodecError Unit := do
  let code ← Object.requireNamed o "LedgerEntryType" Value.uint16?
  if code = entryType then return ()
  else
    throw (.unknownLedgerEntryType
      ("expected AccountRoot, found " ++ entryTypeLabel code))

/-- The native amount of the balance field. -/
def balanceOfObject (o : Object) : Except CodecError Drops := do
  match ← Object.requireNamed o "Balance" Value.amount? with
  | .native d => return d
  | .issued _ => throw (.invalidAmount .balanceNotNative)

/-- The entry of a field tree. -/
def ofObject (o : Object) : Except CodecError AccountRoot := do
  checkEntryType o
  let balance ← balanceOfObject o
  let account ← Object.requireNamed o "Account" Value.accountId?
  let flags ← Object.requireNamed o "Flags" Value.uint32?
  let ownerCount ← Object.requireNamed o "OwnerCount" Value.uint32?
  let previousTxnId ← Object.requireNamed o "PreviousTxnID" Value.hash256?
  let previousTxnLgrSeq ← Object.requireNamed o "PreviousTxnLgrSeq" Value.uint32?
  let sequence ← Object.requireNamed o "Sequence" Value.uint32?
  let accountTxnId ← Object.getNamedAs o "AccountTxnID" Value.hash256?
  let domain ← Object.getNamedAs o "Domain" Value.blob?
  let emailHash ← Object.getNamedAs o "EmailHash" Value.hash128?
  let messageKey ← Object.getNamedAs o "MessageKey" Value.blob?
  let regularKey ← Object.getNamedAs o "RegularKey" Value.accountId?
  let tickSize ← Object.getNamedAs o "TickSize" Value.uint8?
  let transferRate ← Object.getNamedAs o "TransferRate" Value.uint32?
  return ⟨account, balance, flags, ownerCount, previousTxnId, previousTxnLgrSeq, sequence,
    accountTxnId, domain, emailHash, messageKey, regularKey, tickSize, transferRate⟩

/-- The entry of a serialized form. -/
def decode (bs : Bytes) : Except CodecError AccountRoot := do
  let o ← Object.decode bs
  ofObject o

/-- The field tree of an entry. -/
def toObject (r : AccountRoot) : Object :=
  Object.insertSome Field.transferRate .uint32 r.transferRate <|
  Object.insertSome Field.tickSize .uint8 r.tickSize <|
  Object.insertSome Field.regularKey .accountId r.regularKey <|
  Object.insertSome Field.messageKey .blob r.messageKey <|
  Object.insertSome Field.emailHash .hash128 r.emailHash <|
  Object.insertSome Field.domain .blob r.domain <|
  Object.insertSome Field.accountTxnId .hash256 r.accountTxnId <|
  Object.insert Field.sequence (.scalar (.uint32 r.sequence)) <|
  Object.insert Field.previousTxnLgrSeq (.scalar (.uint32 r.previousTxnLgrSeq)) <|
  Object.insert Field.previousTxnId (.scalar (.hash256 r.previousTxnId)) <|
  Object.insert Field.ownerCount (.scalar (.uint32 r.ownerCount)) <|
  Object.insert Field.flags (.scalar (.uint32 r.flags)) <|
  Object.insert Field.balance (.scalar (.amount (.native r.balance))) <|
  Object.insert Field.account (.scalar (.accountId r.account)) <|
  Object.insert Field.ledgerEntryType (.scalar (.uint16 entryType)) []

/-- The field tree of an entry, set field by field. -/
def lower (r : AccountRoot) : Except CodecError Object := do
  let o ← Object.setNamed "LedgerEntryType" (.scalar (.uint16 entryType)) []
  let o ← Object.setNamed "Account" (.scalar (.accountId r.account)) o
  let o ← Object.setNamed "Balance" (.scalar (.amount (.native r.balance))) o
  let o ← Object.setNamed "Flags" (.scalar (.uint32 r.flags)) o
  let o ← Object.setNamed "OwnerCount" (.scalar (.uint32 r.ownerCount)) o
  let o ← Object.setNamed "PreviousTxnID" (.scalar (.hash256 r.previousTxnId)) o
  let o ← Object.setNamed "PreviousTxnLgrSeq" (.scalar (.uint32 r.previousTxnLgrSeq)) o
  let o ← Object.setNamed "Sequence" (.scalar (.uint32 r.sequence)) o
  let o ← Object.setSomeNamed "AccountTxnID" .hash256 r.accountTxnId o
  let o ← Object.setSomeNamed "Domain" .blob r.domain o
  let o ← Object.setSomeNamed "EmailHash" .hash128 r.emailHash o
  let o ← Object.setSomeNamed "MessageKey" .blob r.messageKey o
  let o ← Object.setSomeNamed "RegularKey" .accountId r.regularKey o
  let o ← Object.setSomeNamed "TickSize" .uint8 r.tickSize o
  Object.setSomeNamed "TransferRate" .uint32 r.transferRate o

/-- Whether the account has a flag. -/
def hasFlag (r : AccountRoot) (flag : AccountFlag) : Bool :=
  r.flags &&& flag.bit == flag.bit

/-- The flags of the account, by ascending bit. -/
def flagList (r : AccountRoot) : List AccountFlag :=
  AccountFlag.all.filter r.hasFlag

/-- The identifier of an account's root entry. -/
def indexFor (account : AccountId) : Hash256 :=
  Hash.sha512Half ([0x00, 0x61] ++ account.toBytes)

/-- The identifier of the entry. -/
def index (r : AccountRoot) : Hash256 :=
  indexFor r.account

end AccountRoot

end XrpLedger
