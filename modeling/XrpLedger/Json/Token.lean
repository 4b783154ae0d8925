import XrpLedger.Json.Basic
import XrpLedger.Text.Number

/-!
# JSON tokens

A JSON text is a sequence of marks, names, numbers and strings, with blanks between them.

- `Token`: a mark of structure, or a value without parts.
- `Token.listOfText?`: the tokens of a text.
-/

namespace XrpLedger.Json

/-- A piece of JSON text: a mark of structure, or a value without parts. -/
inductive Token where
  | openArray
  | closeArray
  | openObject
  | closeObject
  | comma
  | colon
  | atom (value : Json)

namespace Token

/-- Whether a character may stand between tokens. -/
def isBlank (c : Char) : Bool :=
  c == ' ' || c == '\t' || c == '\n' || c == '\r'

/-! ## Strings -/

/-- The number that four base-16 digits spell. -/
def codeUnit? (a b c d : Char) : Option Nat :=
  match Text.digitValue? a, Text.digitValue? b, Text.digitValue? c,
    Text.digitValue? d with
  | some a, some b, some c, some d => some (((a * 16 + b) * 16 + c) * 16 + d)
  | _, _, _, _ => none

/-- The character that a letter behind a backslash stands for. -/
def escaped? : Char → Option Char
  | '"' => some '"'
  | '\\' => some '\\'
  | '/' => some '/'
  | 'b' => some '\x08'
  | 'f' => some '\x0c'
  | 'n' => some '\n'
  | 'r' => some '\r'
  | 't' => some '\t'
  | _ => none

/-- The first half of a surrogate pair. -/
def isHighSurrogate (unit : Nat) : Bool :=
  0xD800 ≤ unit && unit < 0xDC00

/-- The second half of a surrogate pair. -/
def isLowSurrogate (unit : Nat) : Bool :=
  0xDC00 ≤ unit && unit < 0xE000

/-- The character of a surrogate pair. -/
def pairChar (high low : Nat) : Char :=
  Char.ofNat (0x10000 + (high - 0xD800) * 0x400 + (low - 0xDC00))

/-- What a code unit in a string stands for: a character, or the first half of a pair. -/
inductive UnitMeaning where
  | char (c : Char)
  | half (high : Nat)

/-- The meaning of a code unit behind a first half, if there is one. -/
def unitMeaning? (high : Option Nat) (unit : Nat) : Option UnitMeaning :=
  match high with
  | some h => if isLowSurrogate unit then some (.char (pairChar h unit)) else none
  | none =>
    if isHighSurrogate unit then some (.half unit)
    else if isLowSurrogate unit then none
    else some (.char (Char.ofNat unit))

/-- The characters of a string up to its closing quote, onto `acc` in reverse, and what
follows. -/
def stringBody? (high : Option Nat) (acc : List Char) :
    List Char → Option (String × List Char)
  | '\\' :: 'u' :: a :: b :: c :: d :: rest =>
    match (codeUnit? a b c d).bind (unitMeaning? high) with
    | some (.char ch) => stringBody? none (ch :: acc) rest
    | some (.half h) => stringBody? (some h) acc rest
    | none => none
  | '\\' :: c :: rest =>
    match high, escaped? c with
    | none, some ch => stringBody? none (ch :: acc) rest
    | _, _ => none
  | '"' :: rest => if high.isSome then none else some (String.ofList acc.reverse, rest)
  | c :: rest =>
    if high.isSome || c.toNat < 0x20 then none else stringBody? none (c :: acc) rest
  | [] => none

/-! ## Numbers and names -/

/-- Whether a character may stand in a number or a name. -/
def isWordChar (c : Char) : Bool :=
  c.isAlphanum || c == '+' || c == '-' || c == '.'

/-- The digits in front of a text, and what follows. -/
def splitDigits (cs : List Char) : List Char × List Char :=
  (cs.takeWhile Char.isDigit, cs.dropWhile Char.isDigit)

/-- Whether a text is a digit list without a needless zero in front. -/
def isWhole (ds : List Char) : Bool :=
  match ds with
  | [] => false
  | ['0'] => true
  | d :: rest => d != '0' && d.isDigit && rest.all Char.isDigit

/-- Whether a text is nothing or an exponent. -/
def isExponent : List Char → Bool
  | [] => true
  | m :: '+' :: ds => (m == 'e' || m == 'E') && ds != [] && ds.all Char.isDigit
  | m :: '-' :: ds => (m == 'e' || m == 'E') && ds != [] && ds.all Char.isDigit
  | m :: ds => (m == 'e' || m == 'E') && ds != [] && ds.all Char.isDigit

/-- Whether a text is a fraction, an exponent, both or nothing. -/
def isTail : List Char → Bool
  | '.' :: cs =>
    match splitDigits cs with
    | (ds, rest) => ds != [] && isExponent rest
  | cs => isExponent cs

/-- Whether a text is a number without a sign. -/
def isMagnitude (cs : List Char) : Bool :=
  match splitDigits cs with
  | (ds, rest) => isWhole ds && isTail rest

/-- The value that a number or a name stands for. -/
def word? (cs : List Char) : Option Json :=
  match cs with
  | '-' :: rest =>
    if isMagnitude rest then some (.otherNumber (String.ofList cs)) else none
  | _ =>
    if isWhole cs then some (.natural (Nat.ofDigitChars 10 cs 0))
    else if isMagnitude cs then some (.otherNumber (String.ofList cs))
    else
      match String.ofList cs with
      | "null" => some .null
      | "true" => some (.bool true)
      | "false" => some (.bool false)
      | _ => none

/-! ## Texts -/

/-- The mark that a character is. -/
def mark? : Char → Option Token
  | '[' => some .openArray
  | ']' => some .closeArray
  | '\x7b' => some .openObject
  | '\x7d' => some .closeObject
  | ',' => some .comma
  | ':' => some .colon
  | _ => none

/-- The token in front of a text, and what follows. -/
def next? (c : Char) (rest : List Char) : Option (Token × List Char) :=
  match mark? c with
  | some token => some (token, rest)
  | none =>
    if c = '"' then
      match stringBody? none [] rest with
      | some (s, rest) => some (.atom (.string s), rest)
      | none => none
    else
      match word? ((c :: rest).takeWhile isWordChar) with
      | some value => some (.atom value, (c :: rest).dropWhile isWordChar)
      | none => none

/-- The tokens of a text, onto `acc` in reverse. Every round takes a character. -/
def collect? : (rounds : Nat) → (acc : List Token) → List Char → Option (List Token)
  | _, acc, [] => some acc.reverse
  | 0, _, _ :: _ => none
  | rounds + 1, acc, c :: rest =>
    if isBlank c then collect? rounds acc rest
    else
      match next? c rest with
      | some (token, rest) => collect? rounds (token :: acc) rest
      | none => none

/-- The tokens of a text. -/
def listOfText? (text : String) : Option (List Token) :=
  let cs := text.toList
  collect? cs.length [] cs

end Token

end XrpLedger.Json
