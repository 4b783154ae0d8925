import XrpLedger.Amount.Json
import XrpLedger.Tree.Basic

/-!
# Field trees in JSON

An object is a JSON object whose members are named for the fields. An element of an array
is an object with one member, named for the field that wraps the element.

- `Scalar.toJson`, `Value.toJson`, `Object.toJson`: the JSON form of a tree.
- `Scalar.ofJson`, `Value.ofJson`, `Object.ofJson`: the tree of a JSON form.
-/

namespace XrpLedger

/-! ## From trees -/

/-- The members of a path step. -/
def PathStep.toJson (s : PathStep) : Json :=
  .ofMembers
    ((s.account.map fun a => ("account", Json.string a.toAddress)).toList ++
      (s.currency.map fun c => ("currency", Json.string c.toText)).toList ++
      (s.issuer.map fun i => ("issuer", Json.string i.toAddress)).toList)

/-- The name of a code that a field shows by name. -/
def FieldId.nameOfCode? (id : FieldId) (code : UInt16) : Option String :=
  if id = Field.transactionType then TransactionType.name? code
  else if id = Field.ledgerEntryType then LedgerEntryType.name? code
  else none

/-- The JSON form of a scalar in a field. -/
def Scalar.toJson (id : FieldId) : Scalar → Json
  | .uint8 v => .natural v.toNat
  | .uint16 v =>
    match id.nameOfCode? v with
    | some name => .string name
    | none => .natural v.toNat
  | .uint32 v => .natural v.toNat
  | .uint64 v => .string (Text.Hex.natural v.toNat)
  | .hash128 h => .string h.toHex
  | .hash160 h => .string h.toHex
  | .hash256 h => .string h.toHex
  | .amount a => a.toJson
  | .blob bs => .string (Text.Hex.encode bs)
  | .accountId a => .string a.toAddress
  | .pathSet paths => .array (paths.map fun path => .array (path.map PathStep.toJson))
  | .vector256 hashes => .array (hashes.map fun h => .string h.toHex)

mutual

/-- The JSON form of the value of a field. -/
def Value.toJson (id : FieldId) : Value → Json
  | .scalar s => s.toJson id
  | .object o => .ofMembers (Object.members o)
  | .array es => .array (Elements.items es)

/-- The members of an object, by name. -/
def Object.members : Object → List (String × Json)
  | [] => []
  | (id, v) :: rest => (id.label, Value.toJson id v) :: Object.members rest

/-- The items of an array, each behind the name of its wrapping field. -/
def Elements.items : Elements → List Json
  | [] => []
  | (id, o) :: rest =>
    .ofMembers [(id.label, .ofMembers (Object.members o))] :: Elements.items rest

end

/-- The JSON form of an object. -/
def Object.toJson (o : Object) : Json :=
  .ofMembers (Object.members o)

/-! ## To trees -/

/-- The text of a string. -/
def FieldId.textOf (id : FieldId) (j : Json) : Except CodecError String :=
  match j.text? with
  | some s => .ok s
  | none => .error (.typeMismatch id .string)

/-- A natural number below a bound. -/
def FieldId.naturalOf (id : FieldId) (bound : Nat) (j : Json) : Except CodecError Nat :=
  match j.natural? bound with
  | some n => .ok n
  | none => .error (.typeMismatch id .unsignedInteger)

/-- The value whose text a string holds. -/
def FieldId.parsedOf {α : Type} (id : FieldId) (parse : String → Except CodecError α)
    (j : Json) :
    Except CodecError α :=
  match id.textOf j with
  | .ok s => parse s
  | .error e => .error e

/-- The value whose text a member holds, if the member is there. -/
def FieldId.memberOf {α : Type} (id : FieldId) (parse : String → Except CodecError α) :
    Option Json → Except CodecError (Option α)
  | none => .ok none
  | some j =>
    match id.parsedOf parse j with
    | .ok a => .ok (some a)
    | .error e => .error e

/-- The path step of a JSON value, member by member. -/
def PathStep.ofJson (id : FieldId) (j : Json) : Except CodecError PathStep :=
  match id.memberOf AccountId.ofAddress (j.get? "account") with
  | .error e => .error e
  | .ok account =>
    match id.memberOf CurrencyCode.ofText (j.get? "currency") with
    | .error e => .error e
    | .ok currency =>
      match id.memberOf AccountId.ofAddress (j.get? "issuer") with
      | .error e => .error e
      | .ok issuer => .ok ⟨account, currency, issuer⟩

/-- The list of what the items of an array are read as, up to the first refusal. -/
def FieldId.listOf {α : Type} (id : FieldId) (read : Json → Except CodecError α)
    (j : Json) :
    Except CodecError (List α) :=
  match j with
  | .array items => items.mapM read
  | _ => .error (.typeMismatch id .array)

/-- The code of a field that shows its code by name. -/
def FieldId.codeOf (id : FieldId) (j : Json) : Except CodecError UInt16 :=
  match j with
  | .string name =>
    if id = Field.transactionType then
      match TransactionType.code? name with
      | some code => .ok code
      | none => .error (.unknownTransactionType name)
    else if id = Field.ledgerEntryType then
      match LedgerEntryType.code? name with
      | some code => .ok code
      | none => .error (.unknownLedgerEntryType name)
    else .error (.typeMismatch id .unsignedInteger)
  | _ => (id.naturalOf UInt16.size j).map UInt16.ofNat

/-- A 64-bit number: base-16 digits in a string, or a natural number. -/
def FieldId.wordOf (id : FieldId) (j : Json) : Except CodecError UInt64 :=
  match j with
  | .string s =>
    match Text.parseNat 16 UInt64.size s with
    | .ok n => .ok (UInt64.ofNat n)
    | .error fault => .error (.parseInt fault)
  | _ => (id.naturalOf UInt64.size j).map UInt64.ofNat

/-- The scalar of a JSON value in a field of the given kind. -/
def Scalar.ofJson (id : FieldId) (kind : FieldKind) (j : Json) :
    Except CodecError Scalar :=
  match kind with
  | .uint8 => (id.naturalOf UInt8.size j).map fun n => .uint8 (UInt8.ofNat n)
  | .uint16 => (id.codeOf j).map .uint16
  | .uint32 => (id.naturalOf UInt32.size j).map fun n => .uint32 (UInt32.ofNat n)
  | .uint64 => (id.wordOf j).map .uint64
  | .hash128 => (id.parsedOf (FixedBytes.ofHex 16) j).map .hash128
  | .hash160 => (id.parsedOf (FixedBytes.ofHex 20) j).map .hash160
  | .hash256 => (id.parsedOf (FixedBytes.ofHex 32) j).map .hash256
  | .amount => (Amount.ofJson j).map .amount
  | .blob => (id.parsedOf Text.Hex.parse j).map .blob
  | .accountId => (id.parsedOf AccountId.ofAddress j).map .accountId
  | .pathSet => (id.listOf (id.listOf (PathStep.ofJson id)) j).map .pathSet
  | .vector256 => (id.listOf (id.parsedOf (FixedBytes.ofHex 32)) j).map .vector256
  | .object => .error (.json .notAnObject)
  | .array => .error (.typeMismatch id .array)

mutual

/-- The value of a JSON value in a field. -/
def Value.ofJson (id : FieldId) (j : Json) : Except CodecError Value :=
  match id.kind?, j with
  | none, _ => .error (.invalidFieldId (.unknownKind id))
  | some .object, .object members =>
    match Object.ofMembers [] members with
    | .ok o => .ok (.object o)
    | .error e => .error e
  | some .array, .array items =>
    match Elements.ofItems id items with
    | .ok es => .ok (.array es)
    | .error e => .error e
  | some kind, j =>
    match Scalar.ofJson id kind j with
    | .ok s => .ok (.scalar s)
    | .error e => .error e

/-- The object of a JSON value. -/
def Object.ofJson (j : Json) : Except CodecError Object :=
  match j with
  | .object members => Object.ofMembers [] members
  | _ => .error (.json .notAnObject)

/-- An object with the fields of more members. -/
def Object.ofMembers (o : Object) : List (String × Json) → Except CodecError Object
  | [] => .ok o
  | (name, j) :: rest =>
    match FieldId.ofName name with
    | .error e => .error e
    | .ok id =>
      match Value.ofJson id j with
      | .error e => .error e
      | .ok v =>
        match Object.put o id v with
        | .error e => .error e
        | .ok (_, o) => Object.ofMembers o rest

/-- The elements of the items of an array. Each item is an object with one member. -/
def Elements.ofItems (id : FieldId) : List Json → Except CodecError Elements
  | [] => .ok []
  | .object [(name, j)] :: rest =>
    match FieldId.ofName name with
    | .error e => .error e
    | .ok inner =>
      if inner.kindCode = FieldKind.object.code then
        match Object.ofJson j with
        | .error e => .error e
        | .ok o =>
          match Elements.ofItems id rest with
          | .error e => .error e
          | .ok es => .ok ((inner, o) :: es)
      else .error (.typeMismatch inner (.kind .object))
  | _ :: _ => .error (.typeMismatch id .singleFieldObjects)

end

end XrpLedger
