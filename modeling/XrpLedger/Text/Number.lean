/-!
# Integers in text

- `parseNat`: an unsigned integer in a given base and below a given bound. One leading
  plus sign is accepted, and the first fault from the left is reported.
- `parseInt?`: a decimal integer with either sign.
- `digitValue?`, `upperHexDigit`: the value of a digit character, and the character of a
  digit.
-/

namespace XrpLedger.Text

/-- Why a text is no integer of the wanted range. -/
inductive IntegerFault where
  | empty
  | invalidDigit
  | tooLarge
  deriving DecidableEq

/-- The wording of an integer fault. -/
def IntegerFault.message : IntegerFault → String
  | .empty => "cannot parse integer from empty string"
  | .invalidDigit => "invalid digit found in string"
  | .tooLarge => "number too large to fit in target type"

/-- The value of a digit below sixteen, letters in either case. -/
def digitValue? (c : Char) : Option Nat :=
  if '0' ≤ c ∧ c ≤ '9' then some (c.toNat - '0'.toNat)
  else if 'a' ≤ c ∧ c ≤ 'f' then some (c.toNat - 'a'.toNat + 10)
  else if 'A' ≤ c ∧ c ≤ 'F' then some (c.toNat - 'A'.toNat + 10)
  else none

/-- The value of a digit of the base, for bases up to sixteen. -/
def digitOf? (base : Nat) (c : Char) : Option Nat :=
  match digitValue? c with
  | some d => if d < base then some d else none
  | none => none

/-- Reads digits onto `acc`, stopping at the first character that is no digit or that
takes the value to `bound`. -/
def parseDigits (base bound : Nat) : (acc : Nat) → List Char → Except IntegerFault Nat
  | acc, [] => .ok acc
  | acc, c :: cs =>
    match digitOf? base c with
    | none => .error .invalidDigit
    | some d =>
      if acc * base + d < bound then parseDigits base bound (acc * base + d) cs
      else .error .tooLarge

/-- An unsigned integer below `bound`, with an optional plus sign. A sign alone is an
invalid digit. -/
def parseNat (base bound : Nat) (text : String) : Except IntegerFault Nat :=
  match text.toList with
  | [] => .error .empty
  | ['+'] => .error .invalidDigit
  | '+' :: cs => parseDigits base bound 0 cs
  | cs => parseDigits base bound 0 cs

/-- A decimal integer from `-half` up to but not including `half`, with an
optional sign. -/
def parseInt? (half : Nat) (cs : List Char) : Option Int :=
  match cs with
  | [] => none
  | ['+'] => none
  | ['-'] => none
  | '+' :: ds => ((parseDigits 10 half 0 ds).toOption).map Int.ofNat
  | '-' :: ds => ((parseDigits 10 (half + 1) 0 ds).toOption).map fun n => -Int.ofNat n
  | ds => ((parseDigits 10 half 0 ds).toOption).map Int.ofNat

/-- The upper-case digit of a value below sixteen. -/
def upperHexDigit (d : Nat) : Char :=
  if d < 10 then Char.ofNat (d + '0'.toNat) else Char.ofNat (d - 10 + 'A'.toNat)

end XrpLedger.Text
