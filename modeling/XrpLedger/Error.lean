import XrpLedger.Field.Table
import XrpLedger.Text.Base58
import XrpLedger.Text.Hex
import XrpLedger.Text.Number

/-!
# Causes of failure

One type holds every reason for which an operation of this library refuses its input.

- `CodecError`: the causes, with what is needed to word them.
- `CodecError.message`: the wording.
-/

namespace XrpLedger

/-- What the header or the place of a field gets wrong. -/
inductive FieldIdFault where
  /-- A header that spells codes in more octets than they need. -/
  | spelling (header : Bytes)
  /-- An identity with a code of zero, which has no header. -/
  | zeroCode (id : FieldId)
  /-- An end marker where a value is due. -/
  | endMarker (id : FieldId)
  /-- An identity whose first code names no kind. -/
  | unknownKind (id : FieldId)
  deriving DecidableEq

/-- The wording of a fault in a field identity. -/
def FieldIdFault.message : FieldIdFault → String
  | .spelling header => Text.Hex.encode header
  | .zeroCode id => id.label
  | .endMarker id => "unexpected end marker " ++ id.label
  | .unknownKind id => id.label ++ " has an unknown type"

/-- What stands where another form of value was due. -/
inductive Expectation where
  | kind (kind : FieldKind)
  | unknownKind
  | string
  | unsignedInteger
  | array
  | singleFieldObjects
  deriving DecidableEq

/-- The value that is due at a field: one of its kind. -/
def Expectation.ofField (id : FieldId) : Expectation :=
  match id.kind? with
  | some k => .kind k
  | none => .unknownKind

/-- The wording of what was due. -/
def Expectation.message : Expectation → String
  | .kind k => k.name
  | .unknownKind => "unknown type"
  | .string => "string"
  | .unsignedInteger => "unsigned integer"
  | .array => "array"
  | .singleFieldObjects => "array of single-field objects"

/-- Why an amount, its text or its word is refused. -/
inductive AmountFault where
  | malformed (text : String)
  | tooManyDrops (drops : Nat)
  | wordOfIssued (word : Nat)
  | negativeNative (word : Nat)
  | wordOfNative (word : Nat)
  | zeroSpelling (word : Nat)
  | valueSpelling (word : Nat)
  | emptyPathStep
  | pathStepKind (kind : UInt8)
  | limitNotIssued
  | feeNotNative
  | balanceNotNative
  deriving DecidableEq

/-- The wording of a fault in an amount. -/
def AmountFault.message : AmountFault → String
  | .malformed text => text
  | .tooManyDrops drops => toString drops ++ " drops exceeds the 10^17 maximum"
  | .wordOfIssued word => Text.Hex.word 8 word ++ " is an issued amount"
  | .negativeNative word => "negative native amount " ++ Text.Hex.word 8 word
  | .wordOfNative word => Text.Hex.word 8 word ++ " is a native amount"
  | .zeroSpelling word => Text.Hex.word 8 word ++ " is not the canonical zero"
  | .valueSpelling word => Text.Hex.word 8 word ++ " is not a canonical currency value"
  | .emptyPathStep => "empty path step"
  | .pathStepKind kind => "path step type 0x" ++ Text.Hex.word 1 kind.toNat
  | .limitNotIssued => "LimitAmount must be an issued amount"
  | .feeNotNative => "Fee must be in drops"
  | .balanceNotNative => "AccountRoot balance must be XRP"

/-- What does not fit its range. -/
inductive RangeFault where
  /-- A value `mantissa * 10 ^ exponent` above the largest issued value. -/
  | issuedValue (mantissa : Nat) (exponent : Int)
  /-- An issued value, given by its text, outside the 96-bit decimals. -/
  | decimal (text : String)
  /-- The length octet that no length begins with. -/
  | lengthOctet
  /-- A payload above the longest one, which is `limit` octets. -/
  | length (length limit : Nat)
  deriving DecidableEq

/-- The wording of a value out of range. -/
def RangeFault.message : RangeFault → String
  | .issuedValue mantissa exponent =>
    toString mantissa ++ "e" ++ toString exponent ++ " exceeds the largest currency value"
  | .decimal text => text ++ " does not fit a 96-bit decimal"
  | .lengthOctet => "length prefix 0xFF"
  | .length count limit =>
    "length " ++ toString count ++ " exceeds " ++ toString limit ++ " bytes"

/-- Why a seed, its text or the keys under it are refused. -/
inductive SeedFault where
  | unrecognized
  | unknownKeyType (text : String)
  | parity
  | noScalar
  | zeroAccountKey
  deriving DecidableEq

/-- The wording of a fault in a seed. -/
def SeedFault.message : SeedFault → String
  | .unrecognized => "unrecognized seed version or length"
  | .unknownKeyType text => "unknown key type " ++ text
  | .parity => "RFC1751 parity check failed"
  | .noScalar => "no valid scalar"
  | .zeroAccountKey => "account key is zero"

/-- Why a public key is refused. -/
inductive PublicKeyFault where
  | rejected (key : Bytes)
  /-- A transaction that names one key and is signed with another. -/
  | notTheSigner (named signer : Bytes)
  deriving DecidableEq

/-- The wording of a fault in a public key. -/
def PublicKeyFault.message : PublicKeyFault → String
  | .rejected key => Text.Hex.encode key
  | .notTheSigner named signer =>
    "SigningPubKey " ++ Text.Hex.encode named ++ " does not belong to the signing key " ++
      Text.Hex.encode signer

/-- What is wrong with the JSON form of a value. -/
inductive JsonFault where
  | notAnObject
  | notAnAmount
  deriving DecidableEq

/-- The wording of a fault in a JSON form. -/
def JsonFault.message : JsonFault → String
  | .notAnObject => "expected a JSON object"
  | .notAnAmount => "data did not match any variant of untagged enum Amount"

/-- Why an operation refuses its input. -/
inductive CodecError where
  | invalidBase58 (fault : Text.Base58.Fault)
  | checksumMismatch
  /-- The version octets found in front of a payload. -/
  | invalidVersion (found : Bytes)
  | invalidLength (expected actual : Nat)
  | destinationTooSmall (needed available : Nat)
  | hexDecode (fault : Text.Hex.Fault)
  | invalidCurrencyCode (text : String)
  | invalidAddress (text : String)
  | invalidSeed (fault : SeedFault)
  | unknownWord (word : String)
  /-- A count that should be a multiple of `unit`. -/
  | invalidWordCount (unit : Nat)
  | unexpectedEof (needed remaining : Nat)
  | invalidFieldId (fault : FieldIdFault)
  | fieldOrder (previous next : FieldId)
  | nestingTooDeep (limit : Nat)
  | unknownField (name : String)
  | typeMismatch (field : FieldId) (expected : Expectation)
  | missingField (name : String)
  | invalidAmount (fault : AmountFault)
  | overflow (fault : RangeFault)
  | invalidPublicKey (fault : PublicKeyFault)
  | invalidSignature
  | unknownTransactionType (text : String)
  | unknownLedgerEntryType (text : String)
  /-- A ledger header of the wrong length. -/
  | invalidLedgerHeader (expected actual : Nat)
  | parseInt (fault : Text.IntegerFault)
  | json (fault : JsonFault)
  deriving DecidableEq

/-- The wording of a cause. -/
def CodecError.message : CodecError → String
  | .invalidBase58 fault => "Invalid base58 data: " ++ fault.message
  | .checksumMismatch => "Checksum mismatch"
  | .invalidVersion found => "Invalid version prefix: " ++ Text.Hex.encode found
  | .invalidLength expected actual =>
    "Invalid length: expected " ++ toString expected ++ ", got " ++ toString actual
  | .destinationTooSmall needed available =>
    "Destination too small: need " ++ toString needed ++ " bytes, have " ++
      toString available
  | .hexDecode fault => "Hex decode error: " ++ fault.message
  | .invalidCurrencyCode text => "Invalid currency code: " ++ text
  | .invalidAddress text => "Invalid address: " ++ text
  | .invalidSeed fault => "Invalid seed: " ++ fault.message
  | .unknownWord word => "Word not in RFC1751 dictionary: " ++ word
  | .invalidWordCount unit => "RFC1751 input must be a multiple of " ++ toString unit
  | .unexpectedEof needed remaining =>
    "Unexpected end of buffer: need " ++ toString needed ++ " bytes, " ++
      toString remaining ++
      " remaining"
  | .invalidFieldId fault => "Invalid field id: " ++ fault.message
  | .fieldOrder previous next =>
    "Field order violation: " ++ previous.label ++ " must precede " ++ next.label
  | .nestingTooDeep limit =>
    "Objects and arrays nested deeper than " ++ toString limit ++ " levels"
  | .unknownField name => "Unknown field: " ++ name
  | .typeMismatch field expected =>
    "Type mismatch for " ++ field.label ++ ": expected " ++ expected.message
  | .missingField name => "Missing field: " ++ name
  | .invalidAmount fault => "Invalid amount: " ++ fault.message
  | .overflow fault => "Value out of range: " ++ fault.message
  | .invalidPublicKey fault => "Invalid public key: " ++ fault.message
  | .invalidSignature => "Invalid signature"
  | .unknownTransactionType text => "Unknown transaction type: " ++ text
  | .unknownLedgerEntryType text => "Unknown ledger entry type: " ++ text
  | .invalidLedgerHeader expected actual =>
    "Invalid ledger header: expected " ++ toString expected ++
      " bytes, got " ++ toString actual
  | .parseInt fault => "Parse int error: " ++ fault.message
  | .json fault => "JSON error: " ++ fault.message

namespace FixedBytes

/-- The octets as a value of fixed width. -/
def ofBytes (n : Nat) (bs : Bytes) : Except CodecError (FixedBytes n) :=
  match ofBytes? n bs with
  | some value => .ok value
  | none => .error (.invalidLength n bs.length)

theorem ofBytes_eq_ok {n : Nat} {bs : Bytes} {a : FixedBytes n} :
    ofBytes n bs = .ok a ↔ a.toList = bs := by
  unfold ofBytes
  constructor
  · intro h
    split at h
    · next hbs =>
      cases h
      exact toList_of_ofBytes? hbs
    · cases h
  · rintro rfl
    rw [ofBytes?_toList]

end FixedBytes

namespace Text.Hex

/-- The octets that a hexadecimal text spells, or the refusal of the text. -/
def parse (text : String) : Except CodecError Bytes :=
  match decode text with
  | .ok bs => .ok bs
  | .error fault => .error (.hexDecode fault)

end Text.Hex

namespace FieldId

/-- The identity of the known field with a name. -/
def ofName (name : String) : Except CodecError FieldId :=
  match ofName? name with
  | some id => .ok id
  | none => .error (.unknownField name)

end FieldId

end XrpLedger
