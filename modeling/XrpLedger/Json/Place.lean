import XrpLedger.Text.Decimal

/-!
# Places in JSON texts

A message about a JSON value may end in the place where the value stands, as in
`… at line 3 column 5`. Line zero means that the place is not known, and such a place is
left out.

- `Place`: a line and a column.
- `Place.split?`: a message and the place at its end.
- `Place.restate`: the message with its place written anew.
-/

namespace XrpLedger.Json

/-- A line and a column. -/
structure Place where
  line : Nat
  column : Nat
  deriving DecidableEq

namespace Place

/-- Stands in front of the line. -/
def lineMark : List Char := " at line ".toList

/-- Stands in front of the column. -/
def columnMark : List Char := " column ".toList

/-- The 64-bit number at the end of a text, with what is in front of it. The text is given
from its end to its start, and so is what is in front. -/
def trailingNumber? (back : List Char) : Option (Nat × List Char) :=
  let ds := back.takeWhile Char.isDigit
  let n := Text.Decimal.natural ds.reverse
  if ds ≠ [] ∧ n < UInt64.size then some (n, back.dropWhile Char.isDigit) else none

/-- A message without the place at its end, and the place. -/
def split? (message : String) : Option (String × Place) := do
  let (column, back) ← trailingNumber? message.toList.reverse
  let back ← columnMark.reverse.isPrefixOf? back
  let (line, back) ← trailingNumber? back
  let back ← lineMark.reverse.isPrefixOf? back
  return (String.ofList back.reverse, ⟨line, column⟩)

/-- A message with the place at its end in plain digits, or without it if the line is
zero. -/
def restate (message : String) : String :=
  match split? message with
  | none => message
  | some (text, place) =>
    if place.line = 0 then text
    else text ++ " at line " ++ toString place.line ++ " column " ++ toString place.column

end Place

end XrpLedger.Json
