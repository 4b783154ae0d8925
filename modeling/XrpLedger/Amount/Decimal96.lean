import XrpLedger.Amount.IssuedValue

/-!
# 96-bit decimals

Decimals with a whole mantissa below `2 ^ 96` and up to twenty-eight places, and their
exchange with issued values.

- `Decimal96`: the decimal `mantissa / 10 ^ scale`.
- `IssuedValue.ofDecimal`: the issued value nearest to a decimal.
- `IssuedValue.toDecimal`: the decimal of an issued value, rounded to twenty-eight places.
-/

namespace XrpLedger

/-- No mantissa reaches `2 ^ 96`. -/
def Decimal96.mantissaBound : Nat := 0x1_0000_0000_0000_0000_0000_0000

/-- The decimal `mantissa / 10 ^ scale`. -/
structure Decimal96 where
  mantissa : Int
  scale : Nat
  natAbs_lt : mantissa.natAbs < Decimal96.mantissaBound
  scale_le : scale ≤ 28
  deriving DecidableEq

namespace Decimal96

/-- The greatest number of places. -/
def maxScale : Nat := 28

/-- Nothing. -/
def zero : Decimal96 := ⟨0, 0, by decide, by decide⟩

/-- The decimal with the given parts, if they are in range. -/
def ofParts? (mantissa : Int) (scale : Nat) : Option Decimal96 :=
  if h : mantissa.natAbs < mantissaBound ∧ scale ≤ 28 then
    some ⟨mantissa, scale, h.1, h.2⟩
  else none

/-- The least scale, and the mantissa that goes with it, for the same magnitude. -/
def stripZeros : (scale magnitude : Nat) → Nat × Nat
  | 0, magnitude => (0, magnitude)
  | scale + 1, magnitude =>
    if magnitude % 10 = 0 then stripZeros scale (magnitude / 10)
    else (scale + 1, magnitude)

theorem stripZeros_fst_le (scale magnitude : Nat) :
    (stripZeros scale magnitude).1 ≤ scale := by
  induction scale generalizing magnitude with
  | zero => simp [stripZeros]
  | succ scale ih =>
    rw [stripZeros]
    split
    · exact Nat.le_succ_of_le (ih _)
    · exact Nat.le_refl _

theorem stripZeros_snd_le (scale magnitude : Nat) :
    (stripZeros scale magnitude).2 ≤ magnitude := by
  induction scale generalizing magnitude with
  | zero => simp [stripZeros]
  | succ scale ih =>
    rw [stripZeros]
    split
    · exact Nat.le_trans (ih _) (Nat.div_le_self _ _)
    · exact Nat.le_refl _

/-- The same number with no trailing zero after the point. -/
def normalize (d : Decimal96) : Decimal96 where
  mantissa := d.mantissa.sign * Int.ofNat (stripZeros d.scale d.mantissa.natAbs).2
  scale := (stripZeros d.scale d.mantissa.natAbs).1
  natAbs_lt := by
    rw [Int.natAbs_mul]
    have hsign : d.mantissa.sign.natAbs ≤ 1 := by
      rw [Int.natAbs_sign]
      split <;> decide
    have hle := stripZeros_snd_le d.scale d.mantissa.natAbs
    have hlt := d.natAbs_lt
    have := Nat.mul_le_mul hsign (Nat.le_refl (stripZeros d.scale d.mantissa.natAbs).2)
    simp only [Int.ofNat_eq_natCast, Int.natAbs_natCast]
    omega
  scale_le := Nat.le_trans (stripZeros_fst_le _ _) d.scale_le

end Decimal96

namespace IssuedValue

/-- The issued value nearest to a decimal. Every decimal is in range. -/
def ofDecimal (d : Decimal96) : IssuedValue :=
  if d.mantissa = 0 then zero
  else
    match scale d.mantissa.natAbs (-Int.ofNat d.scale) with
    | (m, e) => ⟨decide (d.mantissa < 0), m, e⟩

/-- The number of 128-bit words. -/
def wideSize : Nat := 0x1_0000_0000_0000_0000_0000_0000_0000_0000

/-- A number, if it is an unsigned 128-bit word. -/
def wide? (n : Nat) : Option Nat :=
  if n < wideSize then some n else none

/-- The signed number in the two's complement that an unsigned 128-bit word is. -/
def signedWide (n : Nat) : Int :=
  Int.bmod n wideSize

/-- A mantissa without its last digits, rounded, halves up. Nothing is left once all of
them are out. -/
def shiftOut (mantissa places : Nat) : Nat :=
  match wide? (Nat.pow 10 places) with
  | none => 0
  | some unit =>
    if unit ≤ mantissa * 10 then
      if unit ≤ mantissa % unit * 2 then mantissa / unit + 1 else mantissa / unit
    else 0

/-- The mantissa and the places of a magnitude as a decimal. A whole number must be an
unsigned 128-bit word, and places beyond the twenty-eighth are rounded off. -/
def decimalParts? (v : IssuedValue) : Option (Nat × Nat) :=
  if 0 ≤ v.exponent then
    match wide? (Nat.pow 10 v.exponent.toNat) with
    | none => none
    | some power => (wide? (v.mantissa * power)).map fun product => (product, 0)
  else
    let places := v.exponent.natAbs
    if places ≤ Decimal96.maxScale then some (v.mantissa, places)
    else some (shiftOut v.mantissa (places - Decimal96.maxScale), Decimal96.maxScale)

/-- The decimal of an issued value, if it fits. -/
def toDecimal (v : IssuedValue) : Except CodecError Decimal96 :=
  if v.isZero then .ok Decimal96.zero
  else
    match v.decimalParts? with
    | none => .error (.overflow (.decimal v.toText))
    | some (magnitude, places) =>
      let mantissa := if v.negative then -signedWide magnitude else signedWide magnitude
      match Decimal96.ofParts? mantissa places with
      | some d => .ok d.normalize
      | none => .error (.overflow (.decimal v.toText))

end IssuedValue

end XrpLedger
