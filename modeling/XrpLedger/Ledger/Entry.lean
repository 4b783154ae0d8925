import XrpLedger.Ledger.AccountRoot

/-!
# Ledger entries

The first field of an entry tells its type. Account roots have a typed view; other entries
keep their field tree.

- `LedgerEntry`: an entry, with `decode` and `entryType`.
-/

namespace XrpLedger

/-- An entry of a ledger. -/
inductive LedgerEntry where
  | accountRoot (root : AccountRoot)
  | other (entryType : UInt16) (object : Object)

namespace LedgerEntry

/-- The entry type in front of a serialized form. -/
def leadingType : Read UInt16 := do
  let first ← Read.fieldId?
  let id ← Read.lift (FieldId.ofName "LedgerEntryType")
  if first = some id then Read.uint16
  else Read.fail (.missingField "LedgerEntryType")

/-- The entry of a serialized form. -/
def decode (bs : Bytes) : Except CodecError LedgerEntry := do
  let code ← (leadingType (Cursor.start bs)).1
  let o ← Object.decode bs
  if code = AccountRoot.entryType then
    let root ← AccountRoot.ofObject o
    return .accountRoot root
  else return .other code o

/-- The type of an entry. -/
def entryType : LedgerEntry → UInt16
  | .accountRoot _ => AccountRoot.entryType
  | .other code _ => code

end LedgerEntry

end XrpLedger
