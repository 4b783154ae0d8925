import XrpLedger.Error

/-!
# Outputs

A write may fail half-way. What it has put out by then stays, so its result has two parts.

- `Output`: the octets put out, and the cause that stopped the write if one did.
- `Output.append`: one write after another; a write that was stopped keeps the next one
  from starting.
-/

namespace XrpLedger

/-- What a write puts out, and the cause that stopped it if one did. -/
structure Output where
  bytes : Bytes
  failure : Option CodecError

namespace Output

/-- A write that puts out the given octets. -/
def of (bs : Bytes) : Output :=
  ⟨bs, none⟩

/-- A write that is refused at once. -/
def refuse (e : CodecError) : Output :=
  ⟨[], some e⟩

/-- A write of all or nothing. -/
def ofExcept : Except CodecError Bytes → Output
  | .ok bs => of bs
  | .error e => refuse e

/-- One write, then another. -/
def append (a b : Output) : Output :=
  match a.failure with
  | none => ⟨a.bytes ++ b.bytes, b.failure⟩
  | some e => ⟨a.bytes, some e⟩

instance : Append Output := ⟨append⟩

/-- The octets of a write that was not stopped. -/
def toExcept (out : Output) : Except CodecError Bytes :=
  match out.failure with
  | none => .ok out.bytes
  | some e => .error e

end Output

end XrpLedger
