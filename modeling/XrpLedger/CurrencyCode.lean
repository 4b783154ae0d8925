import XrpLedger.OpaqueHash

/-!
# Currency codes

A currency is named by twenty octets. Zero everywhere is XRP. Three characters in the
thirteenth to fifteenth octet, with zeros around them, are a standard code. A nonzero
first octet makes a code of any other content. Nothing else is a code, so that each text
and each octet string names one currency.

- `CurrencyCode`: a valid code, with `ofFixed`, `ofBytes`, `standard` and `ofText`.
- `CurrencyCode.toText`: `XRP`, the three characters, or forty hexadecimal digits.
-/

namespace XrpLedger

namespace CurrencyCode

/-- The punctuation that a standard code may have. -/
def punctuation : List Char :=
  ['<', '>', '(', ')', '\x7b', '\x7d', '[', ']', '|', '?', '!', '@', '#', '$',
    '%', '^', '&', '*']

/-- Whether an octet is a character of standard codes. -/
def isStandardOctet (b : UInt8) : Bool :=
  let c := Char.ofNat b.toNat
  c.isAlphanum || punctuation.contains c

/-- The twenty octets of a standard code. -/
def layout (a b c : UInt8) : FixedBytes 20 :=
  ⟨List.replicate 12 0 ++ [a, b, c] ++ List.replicate 5 0, rfl⟩

/-- The three octets in the place of a standard code. -/
def standardPart (raw : FixedBytes 20) : Bytes :=
  (raw.toList.drop 12).take 3

/-- Whether the octets around the place of a standard code are all zero. -/
def isPaddingClear (raw : FixedBytes 20) : Bool :=
  (raw.toList.take 12).all (· == 0) && (raw.toList.drop 15).all (· == 0)

/-- Whether twenty octets name a currency. -/
def isAccepted (raw : FixedBytes 20) : Bool :=
  raw.toList.head? != some 0 || raw.isZero ||
    (isPaddingClear raw && (standardPart raw).all isStandardOctet &&
      standardPart raw != Bytes.ofText "XRP")

end CurrencyCode

/-- The name of a currency. -/
structure CurrencyCode where
  raw : FixedBytes 20
  isAccepted_raw : CurrencyCode.isAccepted raw = true
  deriving DecidableEq

namespace CurrencyCode

/-- The native currency. -/
def xrp : CurrencyCode :=
  ⟨FixedBytes.zero 20, by decide⟩

/-- The octets of a code. -/
def toBytes (code : CurrencyCode) : Bytes :=
  code.raw.toList

/-- The code with the given octets. -/
def ofFixed (raw : FixedBytes 20) : Except CodecError CurrencyCode :=
  if h : isAccepted raw = true then .ok ⟨raw, h⟩
  else .error (.invalidCurrencyCode raw.toHex)

/-- The code with the given octets, of which there must be twenty. -/
def ofBytes (bs : Bytes) : Except CodecError CurrencyCode :=
  match FixedBytes.ofBytes 20 bs with
  | .ok raw => ofFixed raw
  | .error e => .error e

/-- The code that three characters name. -/
def standard (text : String) : Except CodecError CurrencyCode :=
  if text = "XRP" then .ok xrp
  else
    match Bytes.ofText text with
    | [a, b, c] =>
      if h : [a, b, c].all isStandardOctet = true ∧ isAccepted (layout a b c) = true then
        .ok ⟨layout a b c, h.2⟩
      else .error (.invalidCurrencyCode text)
    | _ => .error (.invalidCurrencyCode text)

/-- Whether the code is the native currency. -/
def isXrp (code : CurrencyCode) : Bool :=
  code.raw.isZero

/-- Whether the code is a standard one. -/
def isStandard (code : CurrencyCode) : Bool :=
  code.raw.toList.head? == some 0 && !code.isXrp

/-- The text of a code. -/
def toText (code : CurrencyCode) : String :=
  if code.isXrp then "XRP"
  else if code.isStandard then
    String.ofList ((standardPart code.raw).map fun b => Char.ofNat b.toNat)
  else code.raw.toHex

/-- The code that a text of three or of forty octets names. -/
def ofText (text : String) : Except CodecError CurrencyCode :=
  let length := (Bytes.ofText text).length
  if length = 3 then standard text
  else if length = 40 then
    match Text.Hex.decode text with
    | .ok bs => ofBytes bs
    | .error _ => .error (.invalidCurrencyCode text)
  else .error (.invalidCurrencyCode text)

/-- The code as it is shown in diagnostics. -/
def describe (code : CurrencyCode) : String :=
  "CurrencyCode(" ++ code.toText ++ ")"

/-- Comparison of the octets. -/
def compare (a b : CurrencyCode) : Ordering :=
  a.raw.compare b.raw

end CurrencyCode

end XrpLedger
