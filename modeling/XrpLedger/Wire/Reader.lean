import XrpLedger.Field.Header
import XrpLedger.Tree.Basic
import XrpLedger.Wire.Length
import XrpLedger.Wire.Mark

/-!
# Reading the serialized form

A cursor moves over a byte string. A read either yields a value and moves the cursor
behind it, or fails and leaves the cursor where the failure was found.

- `Cursor`: the octets left, the position, and the number of objects and arrays being
  read.
- `Read`: a read, with sequencing.
- `Read.value`, `Read.object`, `Read.array`, `Read.fields`: the reads of values of any
  kind.
- `Object.decode`: the object of a byte string, which must hold nothing else.
-/

namespace XrpLedger

/-- A place in a byte string. -/
structure Cursor where
  /-- The octets that have not been read. -/
  rest : Bytes
  /-- The number of octets that have been read. -/
  position : Nat
  /-- The number of objects and arrays around this place. -/
  depth : Nat
  deriving DecidableEq

namespace Cursor

/-- The start of a byte string. -/
def start (bs : Bytes) : Cursor := ⟨bs, 0, 0⟩

/-- The place so many octets further on. -/
def advance (c : Cursor) (n : Nat) : Cursor :=
  { c with rest := c.rest.drop n, position := c.position + n }

end Cursor

/-- A read: its outcome and the place where it ends. -/
def Read (α : Type) : Type :=
  Cursor → Except CodecError α × Cursor

namespace Read

variable {α β : Type}

/-- Reads nothing and succeeds. -/
protected def pure (a : α) : Read α :=
  fun c => (.ok a, c)

/-- One read, then another that may depend on it. A failure of the first is final. -/
protected def bind (m : Read α) (f : α → Read β) : Read β :=
  fun c =>
    match m c with
    | (.ok a, c') => f a c'
    | (.error e, c') => (.error e, c')

instance : Monad Read where
  pure := Read.pure
  bind := Read.bind

/-- Reads nothing and fails. -/
def fail (e : CodecError) : Read α :=
  fun c => (.error e, c)

/-- Reads nothing, with a given outcome. -/
def lift (r : Except CodecError α) : Read α :=
  fun c => (r, c)

@[simp] theorem pure_apply (a : α) (c : Cursor) : (pure a : Read α) c = (.ok a, c) := rfl

@[simp] theorem fail_apply (e : CodecError) (c : Cursor) :
    (fail e : Read α) c = (.error e, c) := rfl

@[simp] theorem lift_apply (r : Except CodecError α) (c : Cursor) :
    lift r c = (r, c) := rfl

theorem bind_apply (m : Read α) (f : α → Read β) (c : Cursor) :
    (m >>= f) c =
      match m c with
      | (.ok a, c') => f a c'
      | (.error e, c') => (.error e, c') := rfl

theorem bind_ok {m : Read α} {c c' : Cursor} {a : α} (h : m c = (.ok a, c'))
    (f : α → Read β) :
    (m >>= f) c = f a c' := by
  rw [bind_apply, h]

theorem bind_error {m : Read α} {c c' : Cursor} {e : CodecError}
    (h : m c = (.error e, c')) (f : α → Read β) : (m >>= f) c = (.error e, c') := by
  rw [bind_apply, h]

/-! ## Octets -/

/-- The next octet, without moving. -/
def peek : Read UInt8 :=
  fun c =>
    match c.rest with
    | [] => (.error (.unexpectedEof 1 0), c)
    | b :: _ => (.ok b, c)

/-- The next `n` octets. -/
def take (n : Nat) : Read Bytes :=
  fun c =>
    match c.rest.splitAt n with
    | (front, back) =>
      if front.length < n then (.error (.unexpectedEof n c.rest.length), c)
      else (.ok front, ⟨back, c.position + n, c.depth⟩)

/-- What a decoder finds in front, behind which the read ends. -/
def decoded (decode : Bytes → Except CodecError (α × Nat)) : Read α :=
  fun c =>
    match decode c.rest with
    | .ok (a, n) => (.ok a, c.advance n)
    | .error e => (.error e, c)

/-- A big-endian number of `width` octets. -/
def number (width : Nat) : Read Nat := do
  let bs ← take width
  pure (Bytes.toNat bs)

/-- A number of one octet. -/
def uint8 : Read UInt8 := do
  let n ← number 1
  pure (UInt8.ofNat n)

/-- A number of two octets. -/
def uint16 : Read UInt16 := do
  let n ← number 2
  pure (UInt16.ofNat n)

/-- A number of four octets. -/
def uint32 : Read UInt32 := do
  let n ← number 4
  pure (UInt32.ofNat n)

/-- A number of eight octets. -/
def uint64 : Read UInt64 := do
  let n ← number 8
  pure (UInt64.ofNat n)

/-- `n` octets as a value of fixed width. -/
def fixed (n : Nat) : Read (FixedBytes n) := do
  let bs ← take n
  lift (FixedBytes.ofBytes n bs)

/-! ## Headers and payloads -/

/-- The next field header, or nothing at the end. -/
def fieldId? : Read (Option FieldId) :=
  fun c =>
    match c.rest with
    | [] => (.ok none, c)
    | _ :: _ =>
      (do let id ← decoded FieldId.decode; pure (some id) : Read (Option FieldId)) c

/-- The next field header, which must be there. -/
def fieldId : Read FieldId := do
  match ← fieldId? with
  | some id => pure id
  | none => fail (.unexpectedEof 1 0)

/-- The length of a payload. -/
def length : Read Nat :=
  decoded Length.decode

/-- A payload behind its length. -/
def payload : Read Bytes := do
  let n ← length
  take n

/-- An account identifier behind its length, which must be twenty. -/
def accountId : Read AccountId := do
  let bs ← payload
  lift (AccountId.ofBytes bs)

/-! ## Scalars -/

/-- An account identifier without a length. -/
def bareAccountId : Read AccountId := do
  let bs ← take 20
  lift (AccountId.ofBytes bs)

/-- A currency code. -/
def currencyCode : Read CurrencyCode := do
  let bs ← take 20
  lift (CurrencyCode.ofBytes bs)

/-- A native amount. -/
def drops : Read Drops := do
  let word ← uint64
  lift (Drops.ofWord word)

/-- An issued amount. -/
def issuedAmount : Read IssuedAmount := do
  let word ← uint64
  let value ← lift (IssuedValue.ofWord word)
  let currency ← currencyCode
  let issuer ← bareAccountId
  lift (IssuedAmount.make value currency issuer)

/-- An amount; the top bit of its word tells the two forms apart. -/
def amount : Read Amount := do
  let b ← peek
  if b < 0x80 then
    let d ← drops
    pure (.native d)
  else
    let a ← issuedAmount
    pure (.issued a)

/-- A member of a path step, if its bit is set. -/
def member (bits bit : UInt8) (read : Read α) : Read (Option α) :=
  if bits &&& bit = 0 then pure none
  else do
    let a ← read
    pure (some a)

/-- The members of a path step with the given bits. -/
def pathStep (bits : UInt8) : Read PathStep :=
  if bits &&&
      ~~~(PathStep.accountBit ||| PathStep.currencyBit ||| PathStep.issuerBit) ≠ 0 then
    fail (.invalidAmount (.pathStepKind bits))
  else do
    let account ← member bits PathStep.accountBit bareAccountId
    let currency ← member bits PathStep.currencyBit currencyCode
    let issuer ← member bits PathStep.issuerBit bareAccountId
    pure ⟨account, currency, issuer⟩

/-- What is left of a path, and the paths behind it, up to the terminator. Every round
reads an octet, so one round more than there are octets is enough. -/
def paths : (rounds : Nat) → Read (Path × List Path)
  | 0 => fail (.unexpectedEof 1 0)
  | rounds + 1 => do
    let bits ← uint8
    if bits = PathSet.terminator then pure ([], [])
    else if bits = PathSet.separator then
      let more ← paths rounds
      pure ([], more.1 :: more.2)
    else
      let step ← pathStep bits
      let more ← paths rounds
      pure (step :: more.1, more.2)

/-- A path set. -/
def pathSet (rounds : Nat) : Read (List Path) := do
  let more ← paths rounds
  pure (more.1 :: more.2)

/-- The hashes of a payload. -/
def hashesOf : (count : Nat) → Bytes → Except CodecError (List Hash256)
  | 0, _ => .ok []
  | count + 1, bs =>
    match FixedBytes.ofBytes 32 (bs.take 32), hashesOf count (bs.drop 32) with
    | .ok h, .ok hs => .ok (h :: hs)
    | .error e, _ => .error e
    | .ok _, .error e => .error e

/-- A list of hashes behind its length in octets. -/
def vector256 : Read (List Hash256) := do
  let bs ← payload
  if bs.length % 32 = 0 then lift (hashesOf (bs.length / 32) bs)
  else fail (.invalidLength (bs.length / 32 * 32) bs.length)

/-! ## Objects and arrays -/

/-- The greatest number of objects and arrays around a value. -/
def maxDepth : Nat := 10

/-- A read one level further in. -/
def nested (m : Read α) : Read α :=
  fun c =>
    match m { c with depth := c.depth + 1 } with
    | (r, c') => (r, { c' with depth := c'.depth - 1 })

/-- The value of a field, with the reads of inner objects and arrays. -/
def valueWith (object : Read Object) (array : Read Elements) (rounds : Nat)
    (id : FieldId) :
    Read Value :=
  if id = FieldId.objectEnd ∨ id = FieldId.arrayEnd then
    fail (.invalidFieldId (.endMarker id))
  else
    match id.kind? with
    | none => fail (.invalidFieldId (.unknownKind id))
    | some .uint8 => do let v ← uint8; pure (.scalar (.uint8 v))
    | some .uint16 => do let v ← uint16; pure (.scalar (.uint16 v))
    | some .uint32 => do let v ← uint32; pure (.scalar (.uint32 v))
    | some .uint64 => do let v ← uint64; pure (.scalar (.uint64 v))
    | some .hash128 => do let h ← fixed 16; pure (.scalar (.hash128 h))
    | some .hash160 => do let h ← fixed 20; pure (.scalar (.hash160 h))
    | some .hash256 => do let h ← fixed 32; pure (.scalar (.hash256 h))
    | some .amount => do let a ← amount; pure (.scalar (.amount a))
    | some .blob => do let bs ← payload; pure (.scalar (.blob bs))
    | some .accountId => do let a ← accountId; pure (.scalar (.accountId a))
    | some .pathSet => do let ps ← pathSet rounds; pure (.scalar (.pathSet ps))
    | some .vector256 => do let hs ← vector256; pure (.scalar (.vector256 hs))
    | some .object => do let o ← object; pure (.object o)
    | some .array => do let es ← array; pure (.array es)

/-- The fields of a run after a previous field, up to the end marker if there is one and
to the end of the octets otherwise. Every round reads an octet. -/
def run (value : FieldId → Read Value) (ends : Option FieldId) :
    (rounds : Nat) → (previous : Option FieldId) → Read Object
  | 0, _ => fail (.unexpectedEof 1 0)
  | rounds + 1, previous => do
    match ← fieldId? with
    | none => if ends = none then pure [] else fail (.unexpectedEof 1 0)
    | some id =>
      if some id = ends then pure []
      else
        lift (FieldId.checkAfter previous id)
        let v ← value id
        let rest ← run value ends rounds (some id)
        pure ((id, v) :: rest)

/-- The elements of an array, up to the end marker. Every round reads an octet. -/
def elements (object : Read Object) : (rounds : Nat) → Read Elements
  | 0 => fail (.unexpectedEof 1 0)
  | rounds + 1 => do
    let id ← fieldId
    if id = FieldId.arrayEnd then pure []
    else if id.kindCode ≠ FieldId.objectEnd.kindCode ∨ id = FieldId.objectEnd then
      fail (.typeMismatch id (.kind .object))
    else
      let o ← object
      let rest ← elements object rounds
      pure ((id, o) :: rest)

mutual

/-- The fields of an inner object, when so many levels are left. -/
def objectAt (rounds : Nat) : (levels : Nat) → Read Object
  | 0 => fail (.nestingTooDeep maxDepth)
  | levels + 1 =>
    nested (run (valueWith (objectAt rounds levels) (arrayAt rounds levels) rounds)
      (some FieldId.objectEnd) rounds none)

/-- The elements of an array, when so many levels are left. -/
def arrayAt (rounds : Nat) : (levels : Nat) → Read Elements
  | 0 => fail (.nestingTooDeep maxDepth)
  | levels + 1 => nested (elements (objectAt rounds levels) rounds)

end

/-- The value of a field, when so many levels are left. -/
def valueAt (rounds levels : Nat) (id : FieldId) : Read Value :=
  valueWith (objectAt rounds levels) (arrayAt rounds levels) rounds id

/-- Runs a read with the rounds and the levels that are left at the cursor. -/
def atCursor (m : (rounds levels : Nat) → Read α) : Read α :=
  fun c => m (c.rest.length + 1) (maxDepth - c.depth) c

/-- The value of a field whose header has just been read. -/
def value (id : FieldId) : Read Value :=
  atCursor fun rounds levels => valueAt rounds levels id

/-- An inner object with its end marker. -/
def object : Read Object :=
  atCursor objectAt

/-- The elements of an array with its end marker. -/
def array : Read Elements :=
  atCursor arrayAt

/-- Fields up to the end of the octets. -/
def fields : Read Object :=
  atCursor fun rounds levels => run (valueAt rounds levels) none rounds none

/-- A path set of any size. -/
def anyPathSet : Read (List Path) :=
  atCursor fun rounds _ => pathSet rounds

end Read

/-- The object of a byte string. -/
def Object.decode (bs : Bytes) : Except CodecError Object :=
  (Read.fields (Cursor.start bs)).1

end XrpLedger
