/-!
# Kinds of field value

The serialized format knows fourteen kinds of value, each with a code. The code is the
first part of a field's identity and the major key of the canonical order.

- `FieldKind`: the kinds, with `code`, `ofCode?` and `name`.
- `ofCode?_code`, `code_of_ofCode?`: the codes name the kinds one to one.
-/

namespace XrpLedger

/-- The kind of value that a field holds. -/
inductive FieldKind where
  | uint16
  | uint32
  | uint64
  | hash128
  | hash256
  | amount
  | blob
  | accountId
  | object
  | array
  | uint8
  | hash160
  | pathSet
  | vector256
  deriving DecidableEq

namespace FieldKind

/-- The code of a kind. -/
def code : FieldKind → UInt8
  | .uint16 => 1
  | .uint32 => 2
  | .uint64 => 3
  | .hash128 => 4
  | .hash256 => 5
  | .amount => 6
  | .blob => 7
  | .accountId => 8
  | .object => 14
  | .array => 15
  | .uint8 => 16
  | .hash160 => 17
  | .pathSet => 18
  | .vector256 => 19

/-- Every kind, by ascending code. -/
def all : List FieldKind :=
  [.uint16, .uint32, .uint64, .hash128, .hash256, .amount, .blob, .accountId,
    .object, .array, .uint8, .hash160, .pathSet, .vector256]

/-- The kind with a code. -/
def ofCode? (code : UInt8) : Option FieldKind :=
  all.find? fun kind => kind.code == code

/-- The name of a kind. -/
def name : FieldKind → String
  | .uint16 => "UInt16"
  | .uint32 => "UInt32"
  | .uint64 => "UInt64"
  | .hash128 => "Hash128"
  | .hash256 => "Hash256"
  | .amount => "Amount"
  | .blob => "Blob"
  | .accountId => "AccountID"
  | .object => "STObject"
  | .array => "STArray"
  | .uint8 => "UInt8"
  | .hash160 => "Hash160"
  | .pathSet => "PathSet"
  | .vector256 => "Vector256"

/-- Whether a value of the kind follows a length. -/
def isLengthPrefixed : FieldKind → Bool
  | .blob | .accountId | .vector256 => true
  | _ => false

theorem mem_all (kind : FieldKind) : kind ∈ all := by
  cases kind <;> decide

theorem ofCode?_code (kind : FieldKind) : ofCode? kind.code = some kind := by
  cases kind <;> decide

theorem code_of_ofCode? {code : UInt8} {kind : FieldKind} (h : ofCode? code = some kind) :
    kind.code = code := by
  simpa using List.find?_some h

theorem code_inj {a b : FieldKind} (h : a.code = b.code) : a = b := by
  have := ofCode?_code a
  rw [h, ofCode?_code] at this
  exact (Option.some.inj this).symm

end FieldKind

end XrpLedger
