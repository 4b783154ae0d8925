import XrpLedger.Bytes

/-!
# Strict form of number pairs

An ECDSA signature is a pair of numbers, written as two integers inside a sequence.
Lengths and integers take no more octets than they need, and nothing follows the sequence.

- `Der.encode`, `Der.decode?`: a pair to octets and back.
-/

namespace XrpLedger.Der

/-- Marks a sequence. -/
def sequenceTag : UInt8 := 0x30

/-- Marks an integer. -/
def integerTag : UInt8 := 0x02

/-- The base-256 digits of a number, most significant first; none for zero. -/
def octets : (fuel n : Nat) → Bytes
  | 0, _ => []
  | fuel + 1, n => if n = 0 then [] else octets fuel (n / 256) ++ [UInt8.ofNat n]

/-- The content of a natural number: its digits, behind a zero octet if the first of them
would be read as a sign. -/
def content (n : Nat) : Bytes :=
  match octets n n with
  | [] => [0]
  | b :: bs => if b < 0x80 then b :: bs else 0 :: b :: bs

/-- An integer: its tag, its length and its content. -/
def integer (n : Nat) : Bytes :=
  integerTag :: UInt8.ofNat (content n).length :: content n

/-- The form of a pair of numbers. -/
def encode (r s : Nat) : Bytes :=
  let body := integer r ++ integer s
  sequenceTag :: UInt8.ofNat body.length :: body

/-- Whether a content is the shortest one of a natural number. -/
def isMinimal : Bytes → Bool
  | [] => false
  | [b] => b < 0x80
  | b :: c :: _ => b < 0x80 && (b != 0 || 0x80 ≤ c)

/-- The integer in front of a byte string, and what follows it. -/
def readInteger? : Bytes → Option (Nat × Bytes)
  | tag :: length :: rest =>
    let body := rest.take length.toNat
    if tag = integerTag ∧ length < 0x80 ∧ body.length = length.toNat ∧ isMinimal body then
      some (Bytes.toNat body, rest.drop length.toNat)
    else none
  | _ => none

/-- The pair of numbers with a form. -/
def decode? : Bytes → Option (Nat × Nat)
  | tag :: length :: rest =>
    if tag = sequenceTag ∧ length < 0x80 ∧ rest.length = length.toNat then
      match readInteger? rest with
      | none => none
      | some (r, rest) =>
        match readInteger? rest with
        | some (s, []) => some (r, s)
        | _ => none
    else none
  | _ => none

end XrpLedger.Der
