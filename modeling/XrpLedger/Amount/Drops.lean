import XrpLedger.Amount.Word
import XrpLedger.Error
import XrpLedger.Text.Decimal

/-!
# Native amounts

The native currency is counted in drops, a million to the XRP, and there are at most
`10 ^ 17` of them.

- `Drops`: an amount, with its bound.
- `Drops.toWord`, `Drops.ofWord`: the 64-bit word of the serialized form.
- `Drops.toText`, `Drops.ofText`: the amount in XRP.
- `Drops.ofDropsText`: the amount from a count of drops.
-/

namespace XrpLedger

/-- The greatest number of drops. -/
def Drops.maxCount : Nat := 100_000_000_000_000_000

/-- A native amount. -/
structure Drops where
  count : Nat
  count_le : count ≤ Drops.maxCount
  deriving DecidableEq

namespace Drops

/-- The drops in one XRP. -/
def perXrp : Nat := 1_000_000

/-- The decimal places of an amount in XRP. -/
def places : Nat := 6

/-- The amount of so many drops. -/
def ofCount (count : Nat) : Except CodecError Drops :=
  if h : count ≤ maxCount then .ok ⟨count, h⟩
  else .error (.invalidAmount (.tooManyDrops count))

/-! ## The serialized word -/

/-- The word of an amount: the top bit clear, the next one set, then the count. -/
def toWord (d : Drops) : UInt64 :=
  UInt64.ofNat (AmountWord.positiveBit + d.count)

/-- The amount of a word. The word of nothing at all may lack the sign bit. -/
def ofWord (word : UInt64) : Except CodecError Drops :=
  let n := word.toNat
  if AmountWord.issuedBit ≤ n then .error (.invalidAmount (.wordOfIssued n))
  else
    let count := n % AmountWord.positiveBit
    if n < AmountWord.positiveBit ∧ count ≠ 0 then
      .error (.invalidAmount (.negativeNative n))
    else ofCount count

/-! ## Text -/

/-- The amount in XRP, without trailing zeros. -/
def toText (d : Drops) : String :=
  String.ofList (Text.Decimal.fixedPoint places d.count)

/-- The amount that a decimal number of XRP names: digits and at most one point, with at
most six digits after it. -/
def ofText (text : String) : Except CodecError Drops :=
  match Text.Decimal.splitPoint text.toList with
  | (whole, fraction) =>
    if whole = [] ∧ fraction = [] ∨ places < fraction.length then
      .error (.invalidAmount (.malformed text))
    else if (whole ++ fraction).all Char.isDigit then
      if UInt64.size ≤ Text.Decimal.natural whole then .error (.parseInt .tooLarge)
      else
        let shifted :=
          Text.Decimal.natural fraction * Nat.pow 10 (places - fraction.length)
        let count := Text.Decimal.natural whole * perXrp + shifted
        if UInt64.size ≤ count then .error (.invalidAmount (.malformed text))
        else ofCount count
    else .error (.invalidAmount (.malformed text))

/-- The count of drops in decimal digits. -/
def toDropsText (d : Drops) : String :=
  toString d.count

/-- Why a text is no count of drops. -/
inductive CountFault where
  | notInteger (fault : Text.IntegerFault)
  | refused (e : CodecError)

/-- The wording of a fault in a count of drops. -/
def CountFault.message : CountFault → String
  | .notInteger fault => fault.message
  | .refused e => e.message

/-- The amount that a count of drops names. -/
def ofDropsText (text : String) : Except CountFault Drops :=
  match Text.parseNat 10 UInt64.size text with
  | .error fault => .error (.notInteger fault)
  | .ok count =>
    match ofCount count with
    | .ok d => .ok d
    | .error e => .error (.refused e)

/-- The amount as it is shown in diagnostics. -/
def describe (d : Drops) : String :=
  "XrpAmount(" ++ d.toDropsText ++ " drops)"

/-- Comparison of the counts. -/
def compare (a b : Drops) : Ordering :=
  Ord.compare a.count b.count

end Drops

end XrpLedger
