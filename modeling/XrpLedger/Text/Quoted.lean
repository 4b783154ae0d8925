import XrpLedger.Text.DefaultIgnorable
import XrpLedger.Text.GraphemeExtend
import XrpLedger.Text.Unprintable

/-!
# Quoted characters and texts

Messages show a character between apostrophes and a text between quotation marks, with
escapes for the characters that a reader could not see or would misread.

- `escaped`: a character as it stands between two marks.
- `quoted`, `quotedText`: a character and a text between their marks.
-/

namespace XrpLedger.Text

/-- The lower-case hexadecimal digits of a number, without leading zeros. -/
def hexCode (n : Nat) : String :=
  String.ofList (Nat.toDigits 16 n)

/-- Whether a reader sees a character and can tell it from its neighbours. -/
def isVisible (c : Char) : Bool :=
  (0x20 ≤ c.toNat && c.toNat < 0x7F) ||
    (0x7F < c.toNat && !isGraphemeExtend c && !isDefaultIgnorable c && !isUnprintable c)

/-- A character between two marks. The mark itself, the backslash and the usual controls
have escapes of their own, and any other character that is not visible is shown by its
code. -/
def escaped (mark c : Char) : String :=
  if c = '\t' then "\\t"
  else if c = '\r' then "\\r"
  else if c = '\n' then "\\n"
  else if c = mark || c = '\\' then "\\" ++ c.toString
  else if c.toNat = 0 then "\\0"
  else if isVisible c then c.toString
  else "\\u\x7b" ++ hexCode c.toNat ++ "\x7d"

/-- A character between apostrophes. -/
def quoted (c : Char) : String :=
  "'" ++ escaped '\'' c ++ "'"

/-- A text between quotation marks. -/
def quotedText (s : String) : String :=
  "\"" ++ String.join (s.toList.map (escaped '"')) ++ "\""

end XrpLedger.Text
