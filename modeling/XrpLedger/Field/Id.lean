import XrpLedger.Field.Kind

/-!
# Field identities

A field is identified by the code of its kind and a code of its own. Canonical order
compares the kind first.

- `FieldId`: the pair, with `rank` and the order `<` by rank.
- `FieldId.kind?`: the kind that the first code names, if it names one.
- `FieldId.objectEnd`, `FieldId.arrayEnd`: the two identities that serve as end markers.
- `Field`: the identities that the typed views use, by name.
-/

namespace XrpLedger

/-- The identity of a field: the code of its kind and its own code. -/
structure FieldId where
  kindCode : UInt8
  fieldCode : UInt8
  deriving DecidableEq

namespace FieldId

/-- The place of an identity in canonical order. -/
def rank (id : FieldId) : Nat :=
  id.kindCode.toNat * 256 + id.fieldCode.toNat

instance : LT FieldId := ⟨fun a b => a.rank < b.rank⟩

instance : LE FieldId := ⟨fun a b => a.rank ≤ b.rank⟩

instance (a b : FieldId) : Decidable (a < b) :=
  inferInstanceAs (Decidable (a.rank < b.rank))

instance (a b : FieldId) : Decidable (a ≤ b) :=
  inferInstanceAs (Decidable (a.rank ≤ b.rank))

theorem lt_def {a b : FieldId} : a < b ↔ a.rank < b.rank := Iff.rfl

theorem le_def {a b : FieldId} : a ≤ b ↔ a.rank ≤ b.rank := Iff.rfl

theorem rank_inj {a b : FieldId} (h : a.rank = b.rank) : a = b := by
  obtain ⟨k, f⟩ := a
  obtain ⟨k', f'⟩ := b
  simp only [rank] at h
  have hf := f.toNat_lt
  have hf' := f'.toNat_lt
  have hk : k = k' := UInt8.toNat_inj.mp (by omega)
  have hc : f = f' := UInt8.toNat_inj.mp (by omega)
  rw [hk, hc]

/-- The kind that the first code names. -/
def kind? (id : FieldId) : Option FieldKind :=
  FieldKind.ofCode? id.kindCode

/-- Marks the end of an inner object. -/
def objectEnd : FieldId := ⟨14, 1⟩

/-- Marks the end of an array. -/
def arrayEnd : FieldId := ⟨15, 1⟩

end FieldId

namespace Field

def ledgerEntryType : FieldId := ⟨1, 1⟩
def transactionType : FieldId := ⟨1, 2⟩
def networkId : FieldId := ⟨2, 1⟩
def flags : FieldId := ⟨2, 2⟩
def sourceTag : FieldId := ⟨2, 3⟩
def sequence : FieldId := ⟨2, 4⟩
def previousTxnLgrSeq : FieldId := ⟨2, 5⟩
def expiration : FieldId := ⟨2, 10⟩
def transferRate : FieldId := ⟨2, 11⟩
def ownerCount : FieldId := ⟨2, 13⟩
def destinationTag : FieldId := ⟨2, 14⟩
def qualityIn : FieldId := ⟨2, 20⟩
def qualityOut : FieldId := ⟨2, 21⟩
def offerSequence : FieldId := ⟨2, 25⟩
def lastLedgerSequence : FieldId := ⟨2, 27⟩
def setFlag : FieldId := ⟨2, 33⟩
def clearFlag : FieldId := ⟨2, 34⟩
def ticketSequence : FieldId := ⟨2, 41⟩
def emailHash : FieldId := ⟨4, 1⟩
def previousTxnId : FieldId := ⟨5, 5⟩
def accountTxnId : FieldId := ⟨5, 9⟩
def invoiceId : FieldId := ⟨5, 17⟩
def amount : FieldId := ⟨6, 1⟩
def balance : FieldId := ⟨6, 2⟩
def limitAmount : FieldId := ⟨6, 3⟩
def takerPays : FieldId := ⟨6, 4⟩
def takerGets : FieldId := ⟨6, 5⟩
def fee : FieldId := ⟨6, 8⟩
def sendMax : FieldId := ⟨6, 9⟩
def deliverMin : FieldId := ⟨6, 10⟩
def messageKey : FieldId := ⟨7, 2⟩
def signingPubKey : FieldId := ⟨7, 3⟩
def txnSignature : FieldId := ⟨7, 4⟩
def domain : FieldId := ⟨7, 7⟩
def memoType : FieldId := ⟨7, 12⟩
def memoData : FieldId := ⟨7, 13⟩
def memoFormat : FieldId := ⟨7, 14⟩
def account : FieldId := ⟨8, 1⟩
def destination : FieldId := ⟨8, 3⟩
def regularKey : FieldId := ⟨8, 8⟩
def memo : FieldId := ⟨14, 10⟩
def memos : FieldId := ⟨15, 9⟩
def tickSize : FieldId := ⟨16, 16⟩

end Field

end XrpLedger
