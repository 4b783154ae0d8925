import XrpLedger.Bytes
import XrpLedger.Text.Positional
import XrpLedger.Text.Quoted

/-!
# Base-58 text

A byte string as a number in base 58, over the ledger's own alphabet. Zero octets in front
of the number keep their count: each is written as the alphabet's first character.

- `encode`, `decode`: octets to text and back.
-/

namespace XrpLedger.Text.Base58

/-- The ledger's digits. It has no `0`, `O`, `I` and `l`. -/
def alphabet : List Char :=
  "rpshnaf39wBUDNEGHJKLM4PQRST7VWXYZ2bcdeCg65jkm8oFqi1tuvAxyz".toList

/-- The first character that is no digit. -/
inductive Fault where
  | invalidCharacter (c : Char) (position : Nat)
  | nonAscii (position : Nat)
  deriving DecidableEq

/-- The wording of a base-58 fault. -/
def Fault.message : Fault → String
  | .invalidCharacter c position =>
    "provided string contained invalid character " ++ quoted c ++ " at byte " ++
      toString position
  | .nonAscii position =>
    "provided string contained non-ascii character starting at byte " ++ toString position

/-- The character of a digit. -/
def digitChar (d : Nat) : Char :=
  alphabet.getD d 'r'

/-- The values of the digits of a text, up to the first fault. All characters before a
fault are ASCII, so a position counts octets too. -/
def digitValues : (position : Nat) → List Char → Except Fault (List Nat)
  | _, [] => .ok []
  | position, c :: cs =>
    if 128 ≤ c.toNat then .error (.nonAscii position)
    else
      match alphabet.idxOf? c with
      | none => .error (.invalidCharacter c position)
      | some d =>
        match digitValues (position + 1) cs with
        | .error fault => .error fault
        | .ok ds => .ok (d :: ds)

/-- The number of zeros in front of a digit list. -/
def leadingZeros (ds : List Nat) : Nat :=
  (ds.takeWhile (· == 0)).length

/-- Rewrites a digit list in another base, keeping the count of leading zeros. -/
def rebase (source target : Nat) (ds : List Nat) : List Nat :=
  List.replicate (leadingZeros ds) 0 ++
    Positional.digits target (Positional.value source ds)

/-- The base-58 text of a byte string. -/
def encode (bs : Bytes) : String :=
  String.ofList ((rebase 256 58 (bs.map UInt8.toNat)).map digitChar)

/-- The byte string that a base-58 text spells. -/
def decode (text : String) : Except Fault Bytes :=
  match digitValues 0 text.toList with
  | .error fault => .error fault
  | .ok ds => .ok ((rebase 58 256 ds).map UInt8.ofNat)

end XrpLedger.Text.Base58
