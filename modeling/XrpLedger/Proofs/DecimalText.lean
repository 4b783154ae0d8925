import Mathlib.Data.List.Basic
import Mathlib.Data.List.TakeWhile
import Mathlib.Tactic.Ring
import XrpLedger.Proofs.NumberText

/-!
# Decimal text

- `Text.Decimal.natural_append`: the number of digits behind others.
- `Text.Decimal.exists_fixedPoint`: a fixed-point decimal is made of digits that spell the
  number of units once the trailing zeros are put back.
- `Text.Decimal.splitPoint_digits`, `Text.Decimal.splitPoint_point`: where a text is
  split.
- `Text.Sign`, `Text.parseInt?_eq_some`: a signed number is read from a sign and digits.
-/

namespace XrpLedger.Text

namespace Decimal

variable {cs ds : List Char}

/-! ## Numbers of digits -/

/-- The digits that `Nat.ofDigitChars` starts behind count as much as their places say. -/
theorem ofDigitChars_eq (cs : List Char) (acc : Nat) :
    Nat.ofDigitChars 10 cs acc = acc * 10 ^ cs.length + natural cs := by
  unfold natural
  induction cs generalizing acc with
  | nil => simp
  | cons c cs ih =>
    rw [Nat.ofDigitChars_cons, Nat.ofDigitChars_cons, ih, ih (10 * 0 + _),
      List.length_cons, Nat.pow_succ]
    ring

/-- Digits behind others move them up: `natural` is additive up to a power of ten. -/
theorem natural_append (cs ds : List Char) :
    natural (cs ++ ds) = natural cs * 10 ^ ds.length + natural ds := by
  rw [natural, Nat.ofDigitChars_append, ofDigitChars_eq]
  rfl

theorem natural_toDigits (n : Nat) : natural (Nat.toDigits 10 n) = n :=
  Nat.ofDigitChars_ten_toDigits

theorem natural_zeros (k : Nat) : natural (List.replicate k '0') = 0 := by
  induction k with
  | zero => rfl
  | succ k ih => rw [List.replicate_succ', natural_append, ih]; rfl

/-- The digits `Nat.toDigits` of a number do not start with zero, unless the number is
zero. -/
theorem eq_zero_of_head?_toDigits {n : Nat} (h : (Nat.toDigits 10 n).head? = some '0') :
    n = 0 := by
  -- on the number: its first digit is that of its tenth part
  induction n using Nat.strongRecOn with
  | ind n ih =>
    by_cases hn : n < 10
    · rw [Nat.toDigits_of_lt_base hn, List.head?_cons, Option.some.injEq] at h
      exact Nat.digitChar_eq_zero.mp h
    · have hten : 10 ≤ n := Nat.le_of_not_lt hn
      rw [Nat.toDigits_of_base_le (by decide) hten,
        List.head?_append_of_ne_nil _ Nat.toDigits_ne_nil] at h
      have hrest := ih (n / 10) (Nat.div_lt_self (by omega) (by decide)) h
      omega

/-! ## Padding and trimming -/

theorem isDigit_padded (width n : Nat) : ∀ c ∈ padded width n, c.isDigit = true := by
  intro c hc
  rcases List.mem_append.mp hc with hc | hc
  · rw [List.eq_of_mem_replicate hc]
    rfl
  · exact isDigit_toDigits n c hc

/-- The zeros that `padded` puts in front do not change the number. -/
theorem natural_padded (width n : Nat) : natural (padded width n) = n := by
  unfold padded
  simp only
  rw [natural_append, natural_zeros, natural_toDigits, Nat.zero_mul, Nat.zero_add]

/-- The digits are `padded` to the width, if the number has no more. -/
theorem length_padded {width n : Nat} (hwidth : 0 < width) (hn : n < 10 ^ width) :
    (padded width n).length = width := by
  have hlength : (Nat.toDigits 10 n).length ≤ width :=
    (Nat.length_toDigits_le_iff (by decide) hwidth).mpr hn
  unfold padded
  simp only
  rw [List.length_append, List.length_replicate, Nat.sub_add_cancel hlength]

/-- What `trimZeros` takes away is zeros. -/
theorem exists_trimZeros (cs : List Char) :
    ∃ k, cs = trimZeros cs ++ List.replicate k '0' := by
  have hsplit : cs.reverse.takeWhile (· == '0') ++ cs.reverse.dropWhile (· == '0') =
      cs.reverse :=
    List.takeWhile_append_dropWhile
  refine ⟨(cs.reverse.takeWhile (· == '0')).length, ?_⟩
  have hzeros : cs.reverse.takeWhile (· == '0') =
      List.replicate (cs.reverse.takeWhile (· == '0')).length '0' := by
    refine List.eq_replicate_iff.mpr ⟨rfl, fun c hc => ?_⟩
    have hzero := List.all_eq_true.mp List.all_takeWhile c hc
    exact eq_of_beq hzero
  have hreverse := congrArg List.reverse hsplit
  rw [List.reverse_append, List.reverse_reverse, hzeros,
    List.reverse_replicate] at hreverse
  rw [trimZeros]
  exact hreverse.symm

/-- What `trimZeros` leaves does not end in zero. -/
theorem getLast?_trimZeros (cs : List Char) : (trimZeros cs).getLast? ≠ some '0' := by
  rw [trimZeros, List.getLast?_reverse]
  intro hzero
  have hfirst := List.head?_dropWhile_not (· == '0') cs.reverse
  rw [hzero] at hfirst
  cases hfirst

/-- The digits of the decimal `fixedPoint` spell the number of units, but for trailing
zeros. Those that stand behind the point do not end in zero. -/
theorem exists_fixedPoint {places : Nat} (hplaces : 0 < places) (n : Nat) :
    ∃ fraction k, (∀ c ∈ fraction, c.isDigit = true) ∧ fraction.length + k = places ∧
      natural (Nat.toDigits 10 (n / 10 ^ places) ++ fraction) * 10 ^ k = n ∧
      (fixedPoint places n = Nat.toDigits 10 (n / 10 ^ places) ∧ fraction = [] ∨
        fixedPoint places n = Nat.toDigits 10 (n / 10 ^ places) ++ '.' :: fraction ∧
          fraction ≠ [] ∧ fraction.getLast? ≠ some '0') := by
  have hparts : n / 10 ^ places * 10 ^ places + n % 10 ^ places = n :=
    Nat.div_add_mod' _ _
  unfold fixedPoint
  simp only [Nat.pow_eq]
  -- a number of whole units has no point
  by_cases hmod : n % 10 ^ places = 0
  · refine ⟨[], places, by simp, by simp, ?_, .inl ⟨if_pos hmod, rfl⟩⟩
    rw [List.append_nil, natural_toDigits]
    omega
  · obtain ⟨k, hk⟩ := exists_trimZeros (padded places (n % 10 ^ places))
    -- the places behind the point are padded, and trimmed again by k zeros
    have hlt : n % 10 ^ places < 10 ^ places := Nat.mod_lt _ (Nat.pow_pos (by decide))
    have hlength := congrArg List.length hk
    rw [length_padded hplaces hlt, List.length_append, List.length_replicate] at hlength
    have hvalue := congrArg natural hk
    rw [natural_padded, natural_append, natural_zeros, List.length_replicate,
      Nat.add_zero] at hvalue
    have hne : trimZeros (padded places (n % 10 ^ places)) ≠ [] := by
      intro hnil
      rw [hnil] at hvalue
      exact hmod (hvalue.trans (Nat.zero_mul _))
    refine ⟨_, k, ?_, hlength.symm, ?_, .inr ⟨if_neg hmod, hne, getLast?_trimZeros _⟩⟩
    · intro c hc
      refine isDigit_padded places (n % 10 ^ places) c ?_
      rw [hk]
      exact List.mem_append_left _ hc
    · rw [natural_append, natural_toDigits, Nat.add_mul, ← hvalue,
        Nat.mul_assoc, ← Nat.pow_add, ← hlength]
      exact hparts

/-! ## Points -/

theorem ne_point_of_isDigit {c : Char} (hc : c.isDigit = true) : (c != '.') = true := by
  rw [bne_iff_ne]
  rintro rfl
  cases hc

/-- A text of digits is all in front of the point for `splitPoint`. -/
theorem splitPoint_digits (hcs : ∀ c ∈ cs, c.isDigit = true) :
    splitPoint cs = (cs, []) := by
  have hpoint : ∀ c ∈ cs, (c != '.') = true := fun c hc => ne_point_of_isDigit (hcs c hc)
  rw [splitPoint, List.takeWhile_eq_self_iff.mpr hpoint,
    List.dropWhile_eq_nil_iff.mpr hpoint]
  rfl

/-- Digits and a point are split there by `splitPoint`, whatever stands behind. -/
theorem splitPoint_point (hcs : ∀ c ∈ cs, c.isDigit = true) (ds : List Char) :
    splitPoint (cs ++ '.' :: ds) = (cs, ds) := by
  have hpoint : ∀ c ∈ cs, (c != '.') = true := fun c hc => ne_point_of_isDigit (hcs c hc)
  rw [splitPoint, List.takeWhile_append_of_pos hpoint,
    List.dropWhile_append_of_pos hpoint]
  simp

end Decimal

/-! ## Signed numbers -/

/-- The sign that a number may have in front. -/
inductive Sign where
  | absent
  | plus
  | minus
  deriving DecidableEq

namespace Sign

/-- The characters of a sign. -/
def chars : Sign → List Char
  | absent => []
  | plus => ['+']
  | minus => ['-']

/-- Whether a sign is the one of negative numbers. -/
def isMinus : Sign → Bool
  | minus => true
  | _ => false

/-- A number with a sign. -/
def apply (sign : Sign) (n : Nat) : Int :=
  if sign.isMinus then -(n : Int) else n

end Sign

/-- The sign in front of a number that may be negative. -/
def Sign.ofBool (negative : Bool) : Sign :=
  if negative then .minus else .absent

@[simp] theorem Sign.isMinus_ofBool (negative : Bool) :
    (Sign.ofBool negative).isMinus = negative := by
  cases negative <;> rfl

/-- The text of a signed number. -/
theorem toList_toString (n : Int) :
    (toString n).toList = (Sign.ofBool (decide (n < 0))).chars ++
    Nat.toDigits 10 n.natAbs := by
  cases n with
  | ofNat m =>
    show (Nat.repr m).toList = Nat.toDigits 10 m
    rw [Nat.repr_eq_ofList_toDigits, String.toList_ofList]
  | negSucc m =>
    rw [decide_eq_true (Int.negSucc_lt_zero m)]
    show ("-" ++ Nat.repr (m + 1)).toList = '-' :: Nat.toDigits 10 (m + 1)
    rw [String.toList_append, Nat.repr_eq_ofList_toDigits, String.toList_ofList]
    simp

theorem Sign.apply_natAbs (n : Int) :
    (Sign.ofBool (decide (n < 0))).apply n.natAbs = n := by
  rw [apply, isMinus_ofBool]
  split
  · next hneg =>
    have hlt : n < 0 := of_decide_eq_true hneg
    omega
  · next hpos =>
    have hle : ¬ n < 0 := fun h => hpos (decide_eq_true h)
    omega

variable {half : Nat} {n : Int} {ds : List Char}

/-- The numbers in front of which a minus sign stands have room for one more. -/
theorem parseInt?_chars (sign : Sign) (hne : ds ≠ []) (hds : ∀ c ∈ ds, c.isDigit = true) :
    parseInt? half (sign.chars ++ ds) =
      (parseDigits 10 (half + sign.isMinus.toNat) 0 ds).toOption.map sign.apply := by
  have hplus : ds.head? ≠ some '+' := head?_ne_of_isDigit rfl hds
  have hminus : ds.head? ≠ some '-' := head?_ne_of_isDigit rfl hds
  cases sign with
  | absent =>
    show parseInt? half ds = _
    unfold parseInt?
    split
    · exact absurd rfl hne
    · exact absurd rfl hplus
    · exact absurd rfl hminus
    · exact absurd rfl hplus
    · exact absurd rfl hminus
    · rfl
  | plus =>
    cases ds with
    | nil => exact absurd rfl hne
    | cons c cs => rfl
  | minus =>
    cases ds with
    | nil => exact absurd rfl hne
    | cons c cs => rfl

/-- A signed number is read by `parseInt?` from a `Sign` and digits, if it is in range. -/
theorem parseInt?_eq_some {cs : List Char} (hhalf : 0 < half) :
    parseInt? half cs = some n ↔
      ∃ (sign : Sign) (ds : List Char), cs = sign.chars ++ ds ∧ ds ≠ [] ∧
        (∀ c ∈ ds, c.isDigit = true) ∧ sign.apply (Decimal.natural ds) = n ∧
        -(half : Int) ≤ n ∧ n < half := by
  have hroom : ∀ sign : Sign, 0 < half + sign.isMinus.toNat := fun _ => by omega
  -- the bounds of the two signs are those of the signed number
  have hrange : ∀ (sign : Sign) (k : Nat), k < half + sign.isMinus.toNat ↔
      -(half : Int) ≤ sign.apply k ∧ sign.apply k < half := by
    intro sign k
    cases sign <;> simp only [Sign.apply, Sign.isMinus, Bool.toNat_false, Bool.toNat_true,
      if_true, Bool.false_eq_true, if_false] <;> omega
  constructor
  · intro h
    -- whatever the sign, what is behind it was read as digits
    obtain ⟨sign, ds, rfl, hne, hread⟩ : ∃ (sign : Sign) (ds : List Char),
        cs = sign.chars ++ ds ∧ ds ≠ [] ∧
        (parseDigits 10 (half + sign.isMinus.toNat) 0 ds).toOption.map sign.apply =
          some n := by
      unfold parseInt? at h
      split at h
      · cases h
      · cases h
      · cases h
      next ds hne => exact ⟨.plus, ds, rfl, fun hnil => hne (by rw [hnil]), h⟩
      next ds hne => exact ⟨.minus, ds, rfl, fun hnil => hne (by rw [hnil]), h⟩
      next ds hne _ _ _ _ => exact ⟨.absent, cs, rfl, hne, h⟩
    obtain ⟨k, hk, rfl⟩ := Option.map_eq_some_iff.mp hread
    have hok : parseDigits 10 (half + sign.isMinus.toNat) 0 ds = .ok k := by
      cases hparse : parseDigits 10 (half + sign.isMinus.toNat) 0 ds with
      | error fault =>
        rw [hparse] at hk
        cases hk
      | ok k' =>
        rw [hparse] at hk
        cases hk
        rfl
    obtain ⟨hds, hspelled, hlt⟩ := (parseDigits_ten_eq_ok (hroom sign)).mp hok
    exact ⟨sign, ds, rfl, hne, hds, congrArg sign.apply hspelled, (hrange sign k).mp hlt⟩
  · rintro ⟨sign, ds, rfl, hne, hds, rfl, hn⟩
    have hok :=
      (parseDigits_ten_eq_ok (hroom sign)).mpr ⟨hds, rfl, (hrange sign _).mpr hn⟩
    rw [parseInt?_chars sign hne hds, hok]
    rfl

end XrpLedger.Text
