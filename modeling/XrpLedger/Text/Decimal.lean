/-!
# Decimal text

- `fixedPoint`: a number of units, each a given power of ten of the whole, as a decimal
  with no needless zero and no bare point.
- `splitPoint`: the digits before and after the first point of a text.
-/

namespace XrpLedger.Text.Decimal

/-- The decimal digits of `n`, with zeros in front up to `width` digits. -/
def padded (width n : Nat) : List Char :=
  let ds := Nat.toDigits 10 n
  List.replicate (width - ds.length) '0' ++ ds

/-- A digit list without its trailing zeros. -/
def trimZeros (cs : List Char) : List Char :=
  (cs.reverse.dropWhile (· == '0')).reverse

/-- The digits of `n / 10 ^ places`: the whole part, then the fraction if there is one. -/
def fixedPoint (places n : Nat) : List Char :=
  let whole := Nat.toDigits 10 (n / Nat.pow 10 places)
  if n % Nat.pow 10 places = 0 then whole
  else whole ++ '.' :: trimZeros (padded places (n % Nat.pow 10 places))

/-- The characters before the first point, and those after it. -/
def splitPoint (cs : List Char) : List Char × List Char :=
  (cs.takeWhile (· != '.'), (cs.dropWhile (· != '.')).drop 1)

/-- The number that a list of decimal digits spells; zero for no digit. -/
def natural (ds : List Char) : Nat :=
  Nat.ofDigitChars 10 ds 0

end XrpLedger.Text.Decimal
