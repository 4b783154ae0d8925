/-!
# Byte strings

The ledger's binary forms are strings of octets, and its numbers are written big-endian.

- `Bytes`: a string of octets.
- `Bytes.toNat`, `Bytes.ofNat`: the number that a byte string spells, and the fixed-width
  spelling of a number. `ofNat_toNat` says that the second undoes the first.
- `FixedBytes n`: a byte string of exactly `n` octets.
-/

namespace XrpLedger

/-- A string of octets. -/
abbrev Bytes := List UInt8

namespace Bytes

/-- The number whose base-256 digits are `bs`, most significant first. -/
def toNat (bs : Bytes) : Nat :=
  bs.foldl (fun n b => n * 256 + b.toNat) 0

/-- The low `width` base-256 digits of `n`, most significant first. -/
def ofNat : (width : Nat) → Nat → Bytes
  | 0, _ => []
  | width + 1, n => ofNat width (n / 256) ++ [UInt8.ofNat n]

@[simp] theorem length_ofNat (width n : Nat) : (ofNat width n).length = width := by
  induction width generalizing n with
  | zero => rfl
  | succ width ih => simp [ofNat, ih]

@[simp] theorem toNat_nil : toNat [] = 0 := rfl

/-- The last digit counts once, and those before it 256 times. -/
theorem toNat_concat (bs : Bytes) (b : UInt8) :
    toNat (bs ++ [b]) = toNat bs * 256 + b.toNat := by
  simp [toNat]

/-- Appending the digit of `b` undoes the division by the base. -/
theorem ofNat_succ_mul_add (width n : Nat) (b : UInt8) :
    ofNat (width + 1) (n * 256 + b.toNat) = ofNat width n ++ [b] := by
  have hb := b.toNat_lt
  have hdiv : (n * 256 + b.toNat) / 256 = n := by omega
  have hmod : UInt8.ofNat (n * 256 + b.toNat) = b := by
    apply UInt8.toNat_inj.mp
    rw [UInt8.toNat_ofNat']
    omega
  rw [ofNat, hdiv, hmod]

/-- A byte string is the spelling, at its own width, of the number that it spells. -/
theorem ofNat_toNat (bs : Bytes) : ofNat bs.length (toNat bs) = bs := by
  have h : ∀ cs : Bytes, ofNat cs.reverse.length (toNat cs.reverse) = cs.reverse := by
    intro cs
    induction cs with
    | nil => rfl
    | cons c cs ih =>
      rw [List.reverse_cons, toNat_concat, List.length_append, List.length_singleton,
        ofNat_succ_mul_add, ih]
  have := h bs.reverse
  rwa [List.reverse_reverse] at this

/-- Equal widths and equal numbers mean equal byte strings. -/
theorem toNat_inj {bs cs : Bytes} (hlen : bs.length = cs.length)
    (h : toNat bs = toNat cs) :
    bs = cs := by
  rw [← ofNat_toNat bs, ← ofNat_toNat cs, hlen, h]

/-- The octets of a text in UTF-8. -/
def ofText (text : String) : Bytes :=
  text.toList.flatMap String.utf8EncodeChar

end Bytes

/-- A byte string of exactly `n` octets. -/
structure FixedBytes (n : Nat) where
  /-- The octets, first to last. -/
  toList : Bytes
  length_eq : toList.length = n
  deriving DecidableEq

namespace FixedBytes

variable {n : Nat}

@[ext] theorem ext {a b : FixedBytes n} (h : a.toList = b.toList) : a = b := by
  cases a; cases b; cases h; rfl

/-- The octets as a value of fixed width, if there are exactly `n` of them. -/
def ofBytes? (n : Nat) (bs : Bytes) : Option (FixedBytes n) :=
  if h : bs.length = n then some ⟨bs, h⟩ else none

/-- The low `n` base-256 digits of a number. -/
def ofNat (n value : Nat) : FixedBytes n :=
  ⟨Bytes.ofNat n value, Bytes.length_ofNat n value⟩

/-- The number that the octets spell. -/
def toNat (a : FixedBytes n) : Nat :=
  Bytes.toNat a.toList

/-- The value whose octets are all zero. -/
def zero (n : Nat) : FixedBytes n :=
  ⟨List.replicate n 0, List.length_replicate ..⟩

/-- Whether every octet is zero. -/
def isZero (a : FixedBytes n) : Bool :=
  a.toList.all (· == 0)

/-- Comparison octet by octet, from the first. -/
def compare (a b : FixedBytes n) : Ordering :=
  List.compareLex (fun x y => Ord.compare x y) a.toList b.toList

theorem ofBytes?_toList (a : FixedBytes n) : ofBytes? n a.toList = some a := by
  simp [ofBytes?, a.length_eq]

theorem toList_of_ofBytes? {bs : Bytes} {a : FixedBytes n} (h : ofBytes? n bs = some a) :
    a.toList = bs := by
  unfold ofBytes? at h
  split at h
  · cases h; rfl
  · cases h

end FixedBytes

end XrpLedger
