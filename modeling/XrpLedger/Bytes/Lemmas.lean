import Mathlib
import XrpLedger.Bytes

/-!
# Byte strings and powers of the base

- `Bytes.toNat_lt`: a byte string spells a number below a power of 256.
- `Bytes.toNat_ofNat`: the fixed-width spelling keeps a number modulo a power of 256.
- `Bytes.toNat_append`: the number of a longer byte string.
- `FixedBytes.eq_ofNat_iff`: a byte string of fixed width is known by its number.
-/

namespace XrpLedger.Bytes

/-- A byte string in front counts as many times as the string behind it has spellings. -/
theorem toNat_append (bs cs : Bytes) :
    toNat (bs ++ cs) = toNat bs * 256 ^ cs.length + toNat cs := by
  induction cs using List.reverseRecOn with
  | nil => simp
  | append_singleton cs c ih =>
    rw [← List.append_assoc, toNat_concat, ih, toNat_concat, List.length_append,
      List.length_singleton, pow_succ]
    ring

theorem toNat_lt (bs : Bytes) : toNat bs < 256 ^ bs.length := by
  induction bs using List.reverseRecOn with
  | nil => simp
  | append_singleton bs b ih =>
    have hb := b.toNat_lt
    rw [toNat_concat, List.length_append, List.length_singleton, pow_succ]
    omega

/-- The fixed-width spelling keeps the number modulo `256 ^ width`. -/
theorem toNat_ofNat (width n : Nat) : toNat (ofNat width n) = n % 256 ^ width := by
  induction width generalizing n with
  | zero => simp [ofNat, Nat.mod_one]
  | succ width ih =>
    rw [ofNat, toNat_concat, ih, pow_succ', Nat.mod_mul, UInt8.toNat_ofNat']
    omega

end XrpLedger.Bytes

namespace XrpLedger.FixedBytes

/-- A byte string of fixed width is known by the number that it spells. -/
theorem eq_ofNat_iff {n m : Nat} {a : FixedBytes n} (hm : m < 256 ^ n) :
    a = ofNat n m ↔ a.toNat = m := by
  have hspelled : (ofNat n m).toNat = m := by
    rw [toNat, ofNat, Bytes.toNat_ofNat, Nat.mod_eq_of_lt hm]
  constructor
  · rintro rfl
    exact hspelled
  · intro h
    have hlength : a.toList.length = (ofNat n m).toList.length := by
      rw [a.length_eq, (ofNat n m).length_eq]
    exact ext (Bytes.toNat_inj hlength (h.trans hspelled.symm))

end XrpLedger.FixedBytes
