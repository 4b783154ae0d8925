import XrpLedger.Text.CharRange

/-!
# Default ignorable characters

Characters that leave no mark where they are not supported, as of Unicode 17: joiners,
fillers, selectors, tags, and the code points kept for more of them. The Hangul fillers
are letters, and only this property tells that a reader does not see them.

- `defaultIgnorableRanges`: their code points.
- `isDefaultIgnorable`: whether a character is one of them.
-/

namespace XrpLedger.Text

/-- The code points of the default ignorable characters. -/
def defaultIgnorableRanges : CharRanges :=
  [(0xAD, 0xAD), (0x34F, 0x34F), (0x61C, 0x61C), (0x115F, 0x1160), (0x17B4, 0x17B5),
   (0x180B, 0x180F), (0x200B, 0x200F), (0x202A, 0x202E), (0x2060, 0x206F),
   (0x3164, 0x3164), (0xFE00, 0xFE0F), (0xFEFF, 0xFEFF), (0xFFA0, 0xFFA0),
   (0xFFF0, 0xFFF8), (0x1BCA0, 0x1BCA3), (0x1D173, 0x1D17A), (0xE0000, 0xE0FFF)]

/-- Whether a character leaves no mark where it is not supported. -/
def isDefaultIgnorable (c : Char) : Bool :=
  defaultIgnorableRanges.contains c

/-- The table is in order, and no two of its ranges meet. -/
theorem defaultIgnorableRanges_isAscending :
    defaultIgnorableRanges.isAscending = true := by
  decide +kernel

end XrpLedger.Text
