import XrpLedger.Amount.Word
import XrpLedger.Error
import XrpLedger.Text.Decimal
import XrpLedger.Text.Number

/-!
# Issued values

An issued currency counts in decimal floating point: a sign, sixteen digits and a power of
ten.

- `IssuedValue`: the three parts. `IssuedValue.Normal` says that they are the one spelling
  of a value.
- `IssuedValue.scale`: brings a mantissa to sixteen digits, in three steps: `dropDigits`,
  `roundDigit`, `fillDigits`.
- `IssuedValue.ofScaled`: the normal value nearest to a given one, halves away from zero.
  All other makers of issued values go through it.
- `IssuedValue.toWord`, `IssuedValue.ofWord`: the 64-bit word of the serialized form.
- `IssuedValue.toText`, `IssuedValue.ofText`: the decimal text, which is read digit by
  digit into `Digits`.
- `IssuedValue.compare`, `IssuedValue.neg`, `IssuedValue.abs`.
-/

namespace XrpLedger

/-- The value `± mantissa * 10 ^ exponent` of an issued currency. -/
structure IssuedValue where
  negative : Bool
  mantissa : Nat
  exponent : Int
  deriving DecidableEq

namespace IssuedValue

/-- The least mantissa of a value other than zero. -/
def minMantissa : Nat := 1_000_000_000_000_000

/-- The greatest mantissa. -/
def maxMantissa : Nat := 9_999_999_999_999_999

/-- The least exponent of a value other than zero. -/
def minExponent : Int := -96

/-- The greatest exponent. -/
def maxExponent : Int := 80

/-- Nothing. -/
def zero : IssuedValue := ⟨false, 0, 0⟩

/-- The parts are zero, or sixteen digits with an exponent in range. -/
def Normal (v : IssuedValue) : Prop :=
  v = zero ∨ (minMantissa ≤ v.mantissa ∧ v.mantissa ≤ maxMantissa ∧
    minExponent ≤ v.exponent ∧ v.exponent ≤ maxExponent)

instance (v : IssuedValue) : Decidable v.Normal :=
  inferInstanceAs (Decidable (_ ∨ _))

/-- Whether the value is nothing. -/
def isZero (v : IssuedValue) : Bool :=
  v.mantissa == 0

/-! ## Rounding -/

/-- Takes the last digits off a mantissa of more than seventeen. -/
def dropDigits (mantissa : Nat) (exponent : Int) : Nat × Int :=
  if (maxMantissa + 1) * 10 ≤ mantissa then dropDigits (mantissa / 10) (exponent + 1)
  else (mantissa, exponent)
termination_by mantissa
decreasing_by
  unfold maxMantissa at *
  omega

/-- Rounds a mantissa of seventeen digits to sixteen, halves up. When all sixteen carry,
one more digit goes. -/
def roundDigit (mantissa : Nat) (exponent : Int) : Nat × Int :=
  if mantissa ≤ maxMantissa then (mantissa, exponent)
  else
    let rounded := if 5 ≤ mantissa % 10 then mantissa / 10 + 1 else mantissa / 10
    if rounded ≤ maxMantissa then (rounded, exponent + 1)
    else (rounded / 10, exponent + 2)

/-- Puts zeros behind a positive mantissa of less than sixteen digits. -/
def fillDigits (mantissa : Nat) (exponent : Int) : Nat × Int :=
  if 0 < mantissa ∧ mantissa < minMantissa then fillDigits (mantissa * 10) (exponent - 1)
  else (mantissa, exponent)
termination_by minMantissa - mantissa
decreasing_by
  omega

/-- Brings a positive mantissa to sixteen digits, with the exponent that keeps the value.
Digits that do not fit are rounded off, halves up. -/
def scale (mantissa : Nat) (exponent : Int) : Nat × Int :=
  match dropDigits mantissa exponent with
  | (mantissa, exponent) =>
    match roundDigit mantissa exponent with
    | (mantissa, exponent) => fillDigits mantissa exponent

/-- The normal value nearest to `± mantissa * 10 ^ exponent`. What is too small for the
least exponent is nothing, and what is too large for the greatest is refused. -/
def ofScaled (negative : Bool) (mantissa : Nat) (exponent : Int) :
    Except CodecError IssuedValue :=
  if mantissa = 0 then .ok zero
  else
    match scale mantissa exponent with
    | (m, e) =>
      if maxExponent < e then .error (.overflow (.issuedValue m e))
      else if e < minExponent then .ok zero
      else .ok ⟨negative, m, e⟩

/-! ## Sign and order -/

/-- The value without its sign. -/
def abs (v : IssuedValue) : IssuedValue :=
  { v with negative := false }

/-- The value with the other sign; nothing has only one. -/
def neg (v : IssuedValue) : IssuedValue :=
  if v.isZero then v else { v with negative := !v.negative }

/-- Comparison without regard to signs: by exponent, then by mantissa. -/
def compareMagnitude (a b : IssuedValue) : Ordering :=
  match a.isZero, b.isZero with
  | true, true => .eq
  | true, false => .lt
  | false, true => .gt
  | false, false =>
    (Ord.compare a.exponent b.exponent).then (Ord.compare a.mantissa b.mantissa)

/-- Comparison of normal values as numbers. -/
def compare (a b : IssuedValue) : Ordering :=
  match a.negative, b.negative with
  | false, false => compareMagnitude a b
  | true, true => compareMagnitude b a
  | false, true => .gt
  | true, false => .lt

/-! ## The serialized word -/

/-- What is added to an exponent so that it is positive. -/
def exponentBias : Int := 97

/-- The word of a value: the top bit set, a bit for the positive sign, eight bits for the
exponent and 54 for the mantissa. -/
def toWord (v : IssuedValue) : UInt64 :=
  if v.isZero then UInt64.ofNat AmountWord.issuedBit
  else
    UInt64.ofNat (AmountWord.issuedBit +
      (if v.negative then 0 else AmountWord.positiveBit) +
      (v.exponent + exponentBias).toNat * AmountWord.exponentUnit + v.mantissa)

/-- The value of a word, which must be the one that the value is written as. -/
def ofWord (word : UInt64) : Except CodecError IssuedValue :=
  let n := word.toNat
  if n < AmountWord.issuedBit then .error (.invalidAmount (.wordOfNative n))
  else
    let mantissa := n % AmountWord.exponentUnit
    let exponent : Int := Int.ofNat (n / AmountWord.exponentUnit % 256) - exponentBias
    if mantissa = 0 then
      if n = AmountWord.issuedBit then .ok zero
      else .error (.invalidAmount (.zeroSpelling n))
    else if minMantissa ≤ mantissa ∧ mantissa ≤ maxMantissa ∧
        minExponent ≤ exponent ∧ exponent ≤ maxExponent then
      .ok ⟨n / AmountWord.positiveBit % 2 == 0, mantissa, exponent⟩
    else .error (.invalidAmount (.valueSpelling n))

/-! ## Text -/

/-- The exponents, besides zero, that are written with a point and not with a power of
ten. -/
def isPlain (exponent : Int) : Bool :=
  -25 ≤ exponent && exponent ≤ -5

/-- The text of a magnitude: a plain decimal, or the mantissa and its power of ten. -/
def magnitudeText (v : IssuedValue) : List Char :=
  if v.exponent = 0 then Nat.toDigits 10 v.mantissa
  else if isPlain v.exponent then Text.Decimal.fixedPoint v.exponent.natAbs v.mantissa
  else Nat.toDigits 10 v.mantissa ++ 'e' :: (toString v.exponent).toList

/-- The text of a value. -/
def toText (v : IssuedValue) : String :=
  if v.isZero then "0"
  else String.ofList (if v.negative then '-' :: v.magnitudeText else v.magnitudeText)

/-- The sign in front of a text, and what follows it. -/
def splitSign : List Char → Bool × List Char
  | '-' :: cs => (true, cs)
  | '+' :: cs => (false, cs)
  | cs => (false, cs)

/-- The characters before the first `e` or `E`, and those after it if there is one. -/
def splitExponent (cs : List Char) : List Char × Option (List Char) :=
  let isMark := fun c => c == 'e' || c == 'E'
  match cs.dropWhile (fun c => !isMark c) with
  | [] => (cs, none)
  | _ :: rest => (cs.takeWhile (fun c => !isMark c), some rest)

/-- The number that an exponent part names; none is zero. -/
def exponentOf? : Option (List Char) → Option Int
  | none => some 0
  | some cs => Text.parseInt? 0x8000_0000 cs

/-- The number that the digits read so far spell: `mantissa * 10 ^ exponent`, but for the
digits that were not kept. -/
structure Digits where
  mantissa : Nat
  count : Nat
  exponent : Int
  deriving DecidableEq

namespace Digits

/-- The digits that are kept, from the first that is not zero. -/
def maxCount : Nat := 36

/-- One more than the greatest signed 64-bit number. -/
def exponentBound : Int := 0x8000_0000_0000_0000

/-- Moves the exponent, which must stay a signed 64-bit number. -/
def move? (ds : Digits) (step : Int) : Option Digits :=
  let exponent := ds.exponent + step
  if -exponentBound ≤ exponent ∧ exponent < exponentBound then some { ds with exponent }
  else none

/-- Takes one more digit, of the whole part or of the fraction. -/
def push? (inFraction : Bool) (ds : Digits) (d : Nat) : Option Digits :=
  if ds.mantissa = 0 ∧ d = 0 then
    if inFraction then ds.move? (-1) else some ds
  else if ds.count < maxCount then
    let longer := { ds with mantissa := ds.mantissa * 10 + d, count := ds.count + 1 }
    if inFraction then longer.move? (-1) else some longer
  else if inFraction then some ds
  else ds.move? 1

/-- Takes the digits of a text, if they are decimal digits. -/
def pushAll? (inFraction : Bool) : Digits → List Char → Option Digits
  | ds, [] => some ds
  | ds, c :: cs =>
    match Text.digitOf? 10 c with
    | none => none
    | some d =>
      match ds.push? inFraction d with
      | none => none
      | some ds => pushAll? inFraction ds cs

/-- The digits of a whole part and a fraction, of which one may be empty, with an
exponent. -/
def ofParts? (whole fraction : List Char) (exponent : Int) : Option Digits :=
  if whole = [] ∧ fraction = [] then none
  else
    match pushAll? false ⟨0, 0, exponent⟩ whole with
    | none => none
    | some ds => pushAll? true ds fraction

end Digits

/-- The value nearest to the number that a text names: an optional sign, digits with at
most one point, and an optional power of ten. -/
def ofText (text : String) : Except CodecError IssuedValue :=
  match splitExponent text.toList with
  | (body, exponentPart) =>
    match splitSign body with
    | (negative, number) =>
      match Text.Decimal.splitPoint number with
      | (whole, fraction) =>
        match (exponentOf? exponentPart).bind (Digits.ofParts? whole fraction) with
        | none => .error (.invalidAmount (.malformed text))
        | some ds => ofScaled negative ds.mantissa ds.exponent

/-- The value as it is shown in diagnostics. -/
def describe (v : IssuedValue) : String :=
  "Currency(" ++ v.toText ++ ")"

end IssuedValue

end XrpLedger
