import XrpLedger.Hash.Sha256

/-!
# RIPEMD-160

Two lines of eighty rounds over little-endian 32-bit words.

- `ripemd160`: the hash of a message, 20 octets.
-/

namespace XrpLedger.Hash

namespace Ripemd160

/-- Five chaining words. -/
structure State where
  (a b c d e : UInt32)

/-- The chaining words before the first block. -/
def initial : State :=
  ⟨0x67452301, 0xefcdab89, 0x98badcfe, 0x10325476, 0xc3d2e1f0⟩

/-- One line of rounds: the order of the message words, the rotations, and a constant and
a Boolean function for each group of sixteen rounds. -/
structure Line where
  order : Array Nat
  rotations : Array UInt32
  constants : Array UInt32
  functions : Array Nat

/-- The left line. -/
def left : Line where
  order := #[
    0, 1, 2, 3, 4, 5, 6, 7, 8, 9, 10, 11, 12, 13, 14, 15,
    7, 4, 13, 1, 10, 6, 15, 3, 12, 0, 9, 5, 2, 14, 11, 8,
    3, 10, 14, 4, 9, 15, 8, 1, 2, 7, 0, 6, 13, 11, 5, 12,
    1, 9, 11, 10, 0, 8, 12, 4, 13, 3, 7, 15, 14, 5, 6, 2,
    4, 0, 5, 9, 7, 12, 2, 10, 14, 1, 3, 8, 11, 6, 15, 13]
  rotations := #[
    11, 14, 15, 12, 5, 8, 7, 9, 11, 13, 14, 15, 6, 7, 9, 8,
    7, 6, 8, 13, 11, 9, 7, 15, 7, 12, 15, 9, 11, 7, 13, 12,
    11, 13, 6, 7, 14, 9, 13, 15, 14, 8, 13, 6, 5, 12, 7, 5,
    11, 12, 14, 15, 14, 15, 9, 8, 9, 14, 5, 6, 8, 6, 5, 12,
    9, 15, 5, 11, 6, 8, 13, 12, 5, 12, 13, 14, 11, 8, 5, 6]
  constants := #[0x00000000, 0x5a827999, 0x6ed9eba1, 0x8f1bbcdc, 0xa953fd4e]
  functions := #[0, 1, 2, 3, 4]

/-- The right line. -/
def right : Line where
  order := #[
    5, 14, 7, 0, 9, 2, 11, 4, 13, 6, 15, 8, 1, 10, 3, 12,
    6, 11, 3, 7, 0, 13, 5, 10, 14, 15, 8, 12, 4, 9, 1, 2,
    15, 5, 1, 3, 7, 14, 6, 9, 11, 8, 12, 2, 10, 0, 4, 13,
    8, 6, 4, 1, 3, 11, 15, 0, 5, 12, 2, 13, 9, 7, 10, 14,
    12, 15, 10, 4, 1, 5, 8, 7, 6, 2, 13, 14, 0, 3, 9, 11]
  rotations := #[
    8, 9, 9, 11, 13, 15, 15, 5, 7, 7, 8, 11, 14, 14, 12, 6,
    9, 13, 15, 7, 12, 8, 9, 11, 7, 7, 12, 7, 6, 15, 13, 11,
    9, 7, 15, 11, 8, 6, 6, 14, 12, 13, 5, 14, 13, 13, 7, 5,
    15, 5, 8, 11, 14, 14, 6, 14, 6, 9, 12, 9, 12, 5, 15, 8,
    8, 5, 12, 9, 12, 5, 14, 6, 8, 13, 6, 5, 15, 13, 11, 11]
  constants := #[0x50a28be6, 0x5c4dd124, 0x6d703ef3, 0x7a6d76e9, 0x00000000]
  functions := #[4, 3, 2, 1, 0]

/-- Rotation to the left. -/
def rotate (x : UInt32) (k : UInt32) : UInt32 :=
  (x <<< k) ||| (x >>> (32 - k))

/-- The Boolean functions of three words. -/
def mix (f : Nat) (x y z : UInt32) : UInt32 :=
  match f with
  | 0 => x ^^^ y ^^^ z
  | 1 => (x &&& y) ||| (~~~x &&& z)
  | 2 => (x ||| ~~~y) ^^^ z
  | 3 => (x &&& z) ||| (y &&& ~~~z)
  | _ => x ^^^ (y ||| ~~~z)

/-- One round of a line. -/
def round (line : Line) (w : Array UInt32) (s : State) (t : Nat) : State :=
  let f := mix (line.functions.getD (t / 16) 0) s.b s.c s.d
  let sum := s.a + f + w.getD (line.order.getD t 0) 0 + line.constants.getD (t / 16) 0
  ⟨s.e, rotate sum (line.rotations.getD t 0) + s.e, s.b, rotate s.c 10, s.d⟩

/-- The words of a byte string, four octets each, least significant octet first. -/
def words : (count : Nat) → Bytes → List UInt32
  | 0, _ => []
  | count + 1, bs =>
    UInt32.ofNat (Bytes.toNat (bs.take 4).reverse) :: words count (bs.drop 4)

/-- Mixes a block into the chaining words. -/
def compress (s : State) (block : Bytes) : State :=
  let w := (words 16 block).toArray
  let l := (List.range 80).foldl (round left w) s
  let r := (List.range 80).foldl (round right w) s
  ⟨s.b + l.c + r.d, s.c + l.d + r.e, s.d + l.e + r.a, s.e + l.a + r.b, s.a + l.b + r.c⟩

/-- The chaining words as octets. -/
def State.toBytes (s : State) : Bytes :=
  [s.a, s.b, s.c, s.d, s.e].flatMap fun w => (Bytes.ofNat 4 w.toNat).reverse

theorem State.length_toBytes (s : State) : s.toBytes.length = 20 := by
  simp [State.toBytes]

/-- A message with its padding and its length in bits. -/
def padded (message : Bytes) : Bytes :=
  message ++ (padding 64 8 message.length ++ (Bytes.ofNat 8 (8 * message.length)).reverse)

end Ripemd160

/-- The RIPEMD-160 hash of a message. -/
def ripemd160 (message : Bytes) : FixedBytes 20 :=
  let bs := Ripemd160.padded message
  let state := foldBlocks Ripemd160.compress 64 (bs.length / 64) Ripemd160.initial bs
  ⟨state.toBytes, state.length_toBytes⟩

end XrpLedger.Hash
