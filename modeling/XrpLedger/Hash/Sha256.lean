import XrpLedger.Bytes

/-!
# SHA-256

The hash of the Secure Hash Standard over 32-bit words, and the keyed hash built on it.

- `sha256`: the hash of a message, 32 octets.
- `hmacSha256`: the keyed hash of a message.
- `padding`, `foldBlocks`: the padding and the block loop, shared by the hashes of this
  library.
-/

namespace XrpLedger.Hash

/-! ## Blocks -/

/-- The octets between the end of a message and the length field: a one bit, then zeros up
to the last `lengthOctets` octets of a block. -/
def padding (blockOctets lengthOctets messageLength : Nat) : Bytes :=
  0x80 :: List.replicate
    ((2 * blockOctets - 1 - lengthOctets - messageLength % blockOctets) % blockOctets) 0

/-- Feeds the first `count` blocks of a byte string to a compression function. -/
def foldBlocks {σ : Type} (compress : σ → Bytes → σ) (blockOctets : Nat) :
    (count : Nat) → σ → Bytes → σ
  | 0, state, _ => state
  | count + 1, state, bs =>
    foldBlocks compress blockOctets count (compress state (bs.take blockOctets))
      (bs.drop blockOctets)

/-- The words of a byte string, `width` octets each, most significant octet first. -/
def wordsBE (width : Nat) : (count : Nat) → Bytes → List Nat
  | 0, _ => []
  | count + 1, bs => Bytes.toNat (bs.take width) :: wordsBE width count (bs.drop width)

namespace Sha256

/-- Eight chaining words. -/
structure State where
  (a b c d e f g h : UInt32)

/-- The chaining words before the first block. -/
def initial : State :=
  ⟨0x6a09e667, 0xbb67ae85, 0x3c6ef372, 0xa54ff53a, 0x510e527f, 0x9b05688c,
    0x1f83d9ab, 0x5be0cd19⟩

/-- The round constants. -/
def constants : Array UInt32 := #[
  0x428a2f98, 0x71374491, 0xb5c0fbcf, 0xe9b5dba5,
  0x3956c25b, 0x59f111f1, 0x923f82a4, 0xab1c5ed5,
  0xd807aa98, 0x12835b01, 0x243185be, 0x550c7dc3,
  0x72be5d74, 0x80deb1fe, 0x9bdc06a7, 0xc19bf174,
  0xe49b69c1, 0xefbe4786, 0x0fc19dc6, 0x240ca1cc,
  0x2de92c6f, 0x4a7484aa, 0x5cb0a9dc, 0x76f988da,
  0x983e5152, 0xa831c66d, 0xb00327c8, 0xbf597fc7,
  0xc6e00bf3, 0xd5a79147, 0x06ca6351, 0x14292967,
  0x27b70a85, 0x2e1b2138, 0x4d2c6dfc, 0x53380d13,
  0x650a7354, 0x766a0abb, 0x81c2c92e, 0x92722c85,
  0xa2bfe8a1, 0xa81a664b, 0xc24b8b70, 0xc76c51a3,
  0xd192e819, 0xd6990624, 0xf40e3585, 0x106aa070,
  0x19a4c116, 0x1e376c08, 0x2748774c, 0x34b0bcb5,
  0x391c0cb3, 0x4ed8aa4a, 0x5b9cca4f, 0x682e6ff3,
  0x748f82ee, 0x78a5636f, 0x84c87814, 0x8cc70208,
  0x90befffa, 0xa4506ceb, 0xbef9a3f7, 0xc67178f2]

/-- Rotation to the right. -/
def rotate (x : UInt32) (k : UInt32) : UInt32 :=
  (x >>> k) ||| (x <<< (32 - k))

/-- Appends the next word of the message schedule. -/
def extend (w : Array UInt32) (t : Nat) : Array UInt32 :=
  let x := w.getD (t - 15) 0
  let y := w.getD (t - 2) 0
  let s0 := rotate x 7 ^^^ rotate x 18 ^^^ (x >>> 3)
  let s1 := rotate y 17 ^^^ rotate y 19 ^^^ (y >>> 10)
  w.push (w.getD (t - 16) 0 + s0 + w.getD (t - 7) 0 + s1)

/-- The sixty-four words of the message schedule of a block. -/
def schedule (block : Bytes) : Array UInt32 :=
  (List.range' 16 48).foldl extend ((wordsBE 4 16 block).map UInt32.ofNat).toArray

/-- One round. -/
def round (w : Array UInt32) (s : State) (t : Nat) : State :=
  let s1 := rotate s.e 6 ^^^ rotate s.e 11 ^^^ rotate s.e 25
  let choice := (s.e &&& s.f) ^^^ (~~~s.e &&& s.g)
  let t1 := s.h + s1 + choice + constants.getD t 0 + w.getD t 0
  let s0 := rotate s.a 2 ^^^ rotate s.a 13 ^^^ rotate s.a 22
  let majority := (s.a &&& s.b) ^^^ (s.a &&& s.c) ^^^ (s.b &&& s.c)
  ⟨t1 + (s0 + majority), s.a, s.b, s.c, s.d + t1, s.e, s.f, s.g⟩

/-- Mixes a block into the chaining words. -/
def compress (s : State) (block : Bytes) : State :=
  let r := (List.range 64).foldl (round (schedule block)) s
  ⟨s.a + r.a, s.b + r.b, s.c + r.c, s.d + r.d, s.e + r.e, s.f + r.f, s.g + r.g, s.h + r.h⟩

/-- The chaining words as octets. -/
def State.toBytes (s : State) : Bytes :=
  [s.a, s.b, s.c, s.d, s.e, s.f, s.g, s.h].flatMap fun w => Bytes.ofNat 4 w.toNat

theorem State.length_toBytes (s : State) : s.toBytes.length = 32 := by
  simp [State.toBytes]

/-- A message with its padding and its length in bits. -/
def padded (message : Bytes) : Bytes :=
  message ++ (padding 64 8 message.length ++ Bytes.ofNat 8 (8 * message.length))

end Sha256

/-- The SHA-256 hash of a message. -/
def sha256 (message : Bytes) : FixedBytes 32 :=
  let bs := Sha256.padded message
  let state := foldBlocks Sha256.compress 64 (bs.length / 64) Sha256.initial bs
  ⟨state.toBytes, state.length_toBytes⟩

/-- The HMAC of a message under a key of at most 64 octets. -/
def hmacSha256 (key message : Bytes) : Bytes :=
  let full := key ++ List.replicate (64 - key.length) 0
  let inner := sha256 (full.map (· ^^^ 0x36) ++ message)
  (sha256 (full.map (· ^^^ 0x5c) ++ inner.toList)).toList

end XrpLedger.Hash
