import XrpLedger.Field.Header
import XrpLedger.Tree.Basic
import XrpLedger.Wire.Length
import XrpLedger.Wire.Mark
import XrpLedger.Wire.Output

/-!
# Serialized form

A field is its header and its value. The fields of an object follow each other in
canonical order. An inner object and an array end with a marker, and an element of an
array is an inner object behind the header of its wrapping field.

- `Scalar.output`, `Value.output`: the form of a value.
- `Object.encode`, `Object.encodeSigning`: the form of an object, and of the part that
  signatures cover.
- `Writer`: a form under construction, which accepts fields in canonical order only.
-/

namespace XrpLedger

/-! ## Scalars -/

/-- Octets behind their length. -/
def payload (bs : Bytes) : Output :=
  match Length.encode bs.length with
  | .ok length => .of (length ++ bs)
  | .error e => .refuse e

namespace PathStep

/-- The bits of the members that a step has. -/
def bits (s : PathStep) : UInt8 :=
  (if s.account.isSome then accountBit else 0) |||
    (if s.currency.isSome then currencyBit else 0) |||
    (if s.issuer.isSome then issuerBit else 0)

/-- The octets of the members that a step has. -/
def members (s : PathStep) : Bytes :=
  (s.account.map AccountId.toBytes).getD [] ++
    ((s.currency.map CurrencyCode.toBytes).getD [] ++
      (s.issuer.map AccountId.toBytes).getD [])

/-- The form of a step: its bits, then its members. A step without members has none. -/
def output (s : PathStep) : Output :=
  if s.bits = 0 then .refuse (.invalidAmount .emptyPathStep)
  else .of (s.bits :: s.members)

end PathStep

namespace PathSet

/-- The form of a path: its steps. -/
def pathOutput : Path → Output
  | [] => .of []
  | s :: rest => s.output ++ pathOutput rest

/-- The form of a path set: its paths with separators, then the terminator. -/
def output : List Path → Output
  | [] => .of [terminator]
  | [p] => pathOutput p ++ .of [terminator]
  | p :: q :: rest => pathOutput p ++ (Output.of [separator] ++ output (q :: rest))

end PathSet

/-- The form of a scalar. -/
def Scalar.output : Scalar → Output
  | .uint8 v => .of (Bytes.ofNat 1 v.toNat)
  | .uint16 v => .of (Bytes.ofNat 2 v.toNat)
  | .uint32 v => .of (Bytes.ofNat 4 v.toNat)
  | .uint64 v => .of (Bytes.ofNat 8 v.toNat)
  | .hash128 h => .of h.toList
  | .hash160 h => .of h.toList
  | .hash256 h => .of h.toList
  | .amount a => .of a.toBytes
  | .blob bs => payload bs
  | .accountId id => payload id.toBytes
  | .pathSet paths => PathSet.output paths
  | .vector256 hashes => payload (hashes.flatMap FixedBytes.toList)

/-! ## Objects and arrays -/

/-- The header of a field in a run, if it comes after the previous field. -/
def FieldId.headerAfter (previous : Option FieldId) (id : FieldId) :
    Except CodecError Bytes :=
  match checkAfter previous id with
  | .error e => .error e
  | .ok () => id.encode

/-- The header of a field in a run, if it may hold the value. -/
def FieldId.headerFor (previous : Option FieldId) (id : FieldId) (v : Value) :
    Except CodecError Bytes :=
  if v.Fits id then headerAfter previous id
  else .error (.typeMismatch id (Expectation.ofField id))

mutual

/-- The form of a value. Nothing of an inner object is put out unless all of it can be. -/
def Value.output : Value → Output
  | .scalar s => s.output
  | .object o =>
    match Object.encodeAfter none o with
    | .ok bs => .of (bs ++ [objectEndOctet])
    | .error e => .refuse e
  | .array es => Elements.output es

/-- The form of the fields of an object after a previous field. -/
def Object.encodeAfter : Option FieldId → Object → Except CodecError Bytes
  | _, [] => .ok []
  | previous, (id, v) :: rest =>
    match FieldId.headerFor previous id v with
    | .error e => .error e
    | .ok header =>
      match (Value.output v).toExcept with
      | .error e => .error e
      | .ok bs =>
        match Object.encodeAfter (some id) rest with
        | .error e => .error e
        | .ok tail => .ok (header ++ (bs ++ tail))

/-- The form of the elements of an array, with its end marker. -/
def Elements.output : Elements → Output
  | [] => .of [arrayEndOctet]
  | (id, o) :: rest =>
    if id.kindCode = FieldId.objectEnd.kindCode then
      match id.encode with
      | .error e => .refuse e
      | .ok header =>
        match Object.encodeAfter none o with
        | .error e => ⟨header, some e⟩
        | .ok bs => Output.of (header ++ (bs ++ [objectEndOctet])) ++ Elements.output rest
    else .refuse (.typeMismatch id (.kind .object))

end

namespace Object

/-- The form of an object. -/
def encode (o : Object) : Except CodecError Bytes :=
  encodeAfter none o

/-- The fields of an object that signatures cover. -/
def signingPart (o : Object) : Object :=
  o.filter fun field => field.1.isSigningField

/-- The form of the part of an object that signatures cover. -/
def encodeSigning (o : Object) : Except CodecError Bytes :=
  encode (signingPart o)

end Object

/-! ## Writing field by field -/

/-- A serialized form under construction, and the last field begun in it. -/
structure Writer where
  bytes : Bytes
  last : Option FieldId

namespace Writer

/-- Nothing written yet. -/
def empty : Writer := ⟨[], none⟩

/-- Appends an output. -/
def write (w : Writer) (out : Output) : Writer × Option CodecError :=
  ({ w with bytes := w.bytes ++ out.bytes }, out.failure)

/-- Begins a field. A refused field leaves the writer as it was. -/
def writeFieldId (w : Writer) (id : FieldId) : Writer × Option CodecError :=
  match FieldId.headerAfter w.last id with
  | .error e => (w, some e)
  | .ok header => (⟨w.bytes ++ header, some id⟩, none)

/-- Writes a field and its value. -/
def writeField (w : Writer) (id : FieldId) (v : Value) : Writer × Option CodecError :=
  if v.Fits id then
    match w.writeFieldId id with
    | (w, some e) => (w, some e)
    | (w, none) => w.write v.output
  else (w, some (.typeMismatch id (Expectation.ofField id)))

/-- Writes the fields of an object, up to the first that is refused. -/
def writeFields (w : Writer) : Object → Writer × Option CodecError
  | [] => (w, none)
  | (id, v) :: rest =>
    match w.writeField id v with
    | (w, some e) => (w, some e)
    | (w, none) => writeFields w rest

end Writer

end XrpLedger
