import XrpLedger.Amount.Basic

/-!
# Field trees

Transactions and ledger entries are trees of typed fields. The fields of an object are
kept in canonical order, so that equal objects have equal serialized forms.

- `Scalar`, `Value`, `Object`: the values without inner fields, all values, and the field
  lists.
- `Value.kind`: the kind of field that may hold a value.
- `Object.get?`, `Object.insert`, `Object.erase`: the field list as a finite map.
- `Object.put`: insertion that refuses a value of the wrong kind.
- `Object.getAs`, `Object.require`: lookups that expect a kind.
-/

namespace XrpLedger

/-- One hop of a payment path. -/
structure PathStep where
  account : Option AccountId
  currency : Option CurrencyCode
  issuer : Option AccountId
  deriving DecidableEq

/-- A payment path, hop by hop. -/
abbrev Path := List PathStep

/-- A value without inner fields. -/
inductive Scalar where
  | uint8 (v : UInt8)
  | uint16 (v : UInt16)
  | uint32 (v : UInt32)
  | uint64 (v : UInt64)
  | hash128 (h : Hash128)
  | hash160 (h : Hash160)
  | hash256 (h : Hash256)
  | amount (a : Amount)
  | blob (bs : Bytes)
  | accountId (id : AccountId)
  | pathSet (paths : List Path)
  | vector256 (hashes : List Hash256)
  deriving DecidableEq

/-- The kind of field that holds a scalar. -/
def Scalar.kind : Scalar → FieldKind
  | .uint8 _ => .uint8
  | .uint16 _ => .uint16
  | .uint32 _ => .uint32
  | .uint64 _ => .uint64
  | .hash128 _ => .hash128
  | .hash160 _ => .hash160
  | .hash256 _ => .hash256
  | .amount _ => .amount
  | .blob _ => .blob
  | .accountId _ => .accountId
  | .pathSet _ => .pathSet
  | .vector256 _ => .vector256

/-- The value of a field. The elements of an array keep the field that wraps each
of them. -/
inductive Value where
  | scalar (s : Scalar)
  | object (fields : List (FieldId × Value))
  | array (elements : List (FieldId × List (FieldId × Value)))

/-- The fields of an object, in canonical order. -/
abbrev Object := List (FieldId × Value)

/-- The elements of an array. -/
abbrev Elements := List (FieldId × Object)

/-! ## Equality -/

mutual

/-- Whether two values are equal. -/
def Value.beq : Value → Value → Bool
  | .scalar s, .scalar t => s == t
  | .object o, .object p => Object.beq o p
  | .array es, .array fs => Elements.beq es fs
  | _, _ => false

/-- Whether two objects are equal. -/
def Object.beq : Object → Object → Bool
  | [], [] => true
  | (i, v) :: o, (j, w) :: p => i == j && Value.beq v w && Object.beq o p
  | _, _ => false

/-- Whether two element lists are equal. -/
def Elements.beq : Elements → Elements → Bool
  | [], [] => true
  | (i, o) :: es, (j, p) :: fs => i == j && Object.beq o p && Elements.beq es fs
  | _, _ => false

end

mutual

theorem Value.beq_iff : (v w : Value) → (Value.beq v w = true ↔ v = w)
  | .scalar s, .scalar t => by simp [Value.beq]
  | .object o, .object p => by simp [Value.beq, Object.beq_iff o p]
  | .array es, .array fs => by simp [Value.beq, Elements.beq_iff es fs]
  | .scalar _, .object _ => by simp [Value.beq]
  | .scalar _, .array _ => by simp [Value.beq]
  | .object _, .scalar _ => by simp [Value.beq]
  | .object _, .array _ => by simp [Value.beq]
  | .array _, .scalar _ => by simp [Value.beq]
  | .array _, .object _ => by simp [Value.beq]

theorem Object.beq_iff : (o p : Object) → (Object.beq o p = true ↔ o = p)
  | [], [] => by simp [Object.beq]
  | [], _ :: _ => by simp [Object.beq]
  | _ :: _, [] => by simp [Object.beq]
  | (i, v) :: o, (j, w) :: p => by
    simp [Object.beq, Value.beq_iff v w, Object.beq_iff o p]

theorem Elements.beq_iff : (es fs : Elements) → (Elements.beq es fs = true ↔ es = fs)
  | [], [] => by simp [Elements.beq]
  | [], _ :: _ => by simp [Elements.beq]
  | _ :: _, [] => by simp [Elements.beq]
  | (i, o) :: es, (j, p) :: fs => by
    simp [Elements.beq, Object.beq_iff o p, Elements.beq_iff es fs]

end

instance : DecidableEq Value := fun v w =>
  decidable_of_iff _ (Value.beq_iff v w)

/-! ## Kinds -/

namespace Value

/-- The kind of field that holds a value. -/
def kind : Value → FieldKind
  | .scalar s => s.kind
  | .object _ => .object
  | .array _ => .array

/-- Whether a field of the given identity may hold the value. -/
def Fits (v : Value) (id : FieldId) : Prop :=
  v.kind.code = id.kindCode

instance (v : Value) (id : FieldId) : Decidable (v.Fits id) :=
  inferInstanceAs (Decidable (_ = _))

/-! ## Views -/

def uint8? : Value → Option UInt8
  | .scalar (.uint8 v) => some v
  | _ => none

def uint16? : Value → Option UInt16
  | .scalar (.uint16 v) => some v
  | _ => none

def uint32? : Value → Option UInt32
  | .scalar (.uint32 v) => some v
  | _ => none

def uint64? : Value → Option UInt64
  | .scalar (.uint64 v) => some v
  | _ => none

def hash128? : Value → Option Hash128
  | .scalar (.hash128 h) => some h
  | _ => none

def hash256? : Value → Option Hash256
  | .scalar (.hash256 h) => some h
  | _ => none

def amount? : Value → Option Amount
  | .scalar (.amount a) => some a
  | _ => none

def blob? : Value → Option Bytes
  | .scalar (.blob bs) => some bs
  | _ => none

def accountId? : Value → Option AccountId
  | .scalar (.accountId id) => some id
  | _ => none

def object? : Value → Option Object
  | .object o => some o
  | _ => none

end Value

/-! ## Fields of an object -/

namespace Object

/-- The value of a field. -/
def get? : Object → FieldId → Option Value
  | [], _ => none
  | (i, v) :: rest, id => if i = id then some v else get? rest id

/-- The object with a field set, in its canonical place. -/
def insert (id : FieldId) (v : Value) : Object → Object
  | [] => [(id, v)]
  | (i, w) :: rest =>
    if id < i then (id, v) :: (i, w) :: rest
    else if id = i then (id, v) :: rest
    else (i, w) :: insert id v rest

/-- The object without a field. -/
def erase (id : FieldId) : Object → Object
  | [] => []
  | (i, w) :: rest => if i = id then rest else (i, w) :: erase id rest

/-- The identities of an object's fields are strictly ascending. -/
def Ascending (o : Object) : Prop :=
  (o.map Prod.fst).Pairwise (· < ·)

/-- Sets a field to a value of its kind, and returns what it held before. -/
def put (o : Object) (id : FieldId) (v : Value) :
    Except CodecError (Option Value × Object) :=
  if v.Fits id then .ok (get? o id, insert id v o)
  else .error (.typeMismatch id (Expectation.ofField id))

/-- The view of a field's value, if the field is there. -/
def getAs {α : Type} (o : Object) (id : FieldId) (view : Value → Option α) :
    Except CodecError (Option α) :=
  match get? o id with
  | none => .ok none
  | some v =>
    match view v with
    | some a => .ok (some a)
    | none => .error (.typeMismatch id (.kind v.kind))

/-- The view of the value of a field that must be there. -/
def require {α : Type} (o : Object) (id : FieldId) (view : Value → Option α) :
    Except CodecError α :=
  match getAs o id view with
  | .ok (some a) => .ok a
  | .ok none => .error (.missingField id.label)
  | .error e => .error e

/-- The object with a field set, if there is a value for it. -/
def insertSome {α : Type} (id : FieldId) (make : α → Scalar) (a : Option α) (o : Object) :
    Object :=
  match a with
  | some a => insert id (.scalar (make a)) o
  | none => o

/-! ## Fields by name -/

/-- The value of the field with a name. -/
def getNamed? (o : Object) (name : String) : Option Value :=
  match FieldId.ofName? name with
  | some id => get? o id
  | none => none

/-- Sets the field with a name. -/
def putNamed (o : Object) (name : String) (v : Value) :
    Except CodecError (Option Value × Object) :=
  match FieldId.ofName name with
  | .ok id => put o id v
  | .error e => .error e

/-- The object with the field with a name set to a value of its kind. -/
def setNamed (name : String) (v : Value) (o : Object) : Except CodecError Object :=
  match putNamed o name v with
  | .ok (_, o) => .ok o
  | .error e => .error e

/-- The object with the field with a name set, if there is a value for it. -/
def setSomeNamed {α : Type} (name : String) (make : α → Scalar)
    (a : Option α) (o : Object) :
    Except CodecError Object :=
  match a with
  | some a => setNamed name (.scalar (make a)) o
  | none => .ok o

/-- Removes the field with a name, and returns what it held. -/
def eraseNamed (o : Object) (name : String) : Option Value × Object :=
  match FieldId.ofName? name with
  | some id => (get? o id, erase id o)
  | none => (none, o)

/-- The view of the value of the field with a name, if there is such a field. -/
def getNamedAs {α : Type} (o : Object) (name : String) (view : Value → Option α) :
    Except CodecError (Option α) :=
  match FieldId.ofName? name with
  | some id => getAs o id view
  | none => .ok none

/-- The view of the value of the field with a name, which must be there. -/
def requireNamed {α : Type} (o : Object) (name : String) (view : Value → Option α) :
    Except CodecError α :=
  match getNamedAs o name view with
  | .ok (some a) => .ok a
  | .ok none => .error (.missingField name)
  | .error e => .error e

end Object

end XrpLedger
