/-!
# Ranges of characters

A property of characters is given by the ranges of code points that have it.

- `CharRanges`: the ranges, each by its first and its last code point.
- `CharRanges.contains`: whether a character is in one of the ranges.
- `CharRanges.isAscending`: whether the ranges are in order and apart.
-/

namespace XrpLedger.Text

/-- Ranges of code points, each by its first and its last one. -/
abbrev CharRanges := List (Nat × Nat)

namespace CharRanges

/-- Whether a character is in one of the ranges. -/
def contains (ranges : CharRanges) (c : Char) : Bool :=
  ranges.any fun range => range.1 ≤ c.toNat && c.toNat ≤ range.2

/-- Whether no range is empty, and each ends before the one behind it begins, with a gap
between the two. -/
def isAscending : CharRanges → Bool
  | [] => true
  | [a] => a.1 ≤ a.2
  | a :: b :: rest => a.1 ≤ a.2 && a.2 + 1 < b.1 && isAscending (b :: rest)

end CharRanges

end XrpLedger.Text
