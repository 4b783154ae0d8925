/-!
# Positional numerals

Digit lists, most significant digit first, in any base.

- `digits`: the digits of a number, none for zero.
- `value`: the number that a digit list spells.
- `value_digits`, `digits_value`: they undo each other, the second on lists that hold
  digits of the base and do not start with zero.
-/

namespace XrpLedger.Text.Positional

/-- Puts the digits of `n` in front of `tail`. Each step divides by the base, so for bases
from two on `n` steps are more than enough. -/
def digitsOnto (base : Nat) : (fuel n : Nat) → (tail : List Nat) → List Nat
  | 0, _, tail => tail
  | fuel + 1, n, tail =>
    if n = 0 then tail else digitsOnto base fuel (n / base) (n % base :: tail)

/-- The digits of `n`, most significant first; none for zero. -/
def digits (base n : Nat) : List Nat :=
  digitsOnto base n n []

/-- The number that a digit list spells. -/
def value (base : Nat) (ds : List Nat) : Nat :=
  ds.foldl (fun n d => n * base + d) 0

theorem value_append (base : Nat) (ds es : List Nat) :
    value base (ds ++ es) = es.foldl (fun n d => n * base + d) (value base ds) := by
  simp [value]

@[simp] theorem value_nil (base : Nat) : value base [] = 0 := rfl

theorem value_concat (base : Nat) (ds : List Nat) (d : Nat) :
    value base (ds ++ [d]) = value base ds * base + d := by
  simp [value]

theorem digitsOnto_append (base fuel n : Nat) (tail : List Nat) :
    digitsOnto base fuel n tail = digitsOnto base fuel n [] ++ tail := by
  induction fuel generalizing n tail with
  | zero => simp [digitsOnto]
  | succ fuel ih =>
    simp only [digitsOnto]
    split
    · simp
    · rw [ih, ih _ [n % base]]
      simp

/-- More fuel than the number needs changes nothing. -/
theorem digitsOnto_fuel {base : Nat} (hbase : 2 ≤ base) {fuel n : Nat} (hn : n ≤ fuel)
    (tail : List Nat) : digitsOnto base fuel n tail = digitsOnto base n n tail := by
  induction n using Nat.strongRecOn generalizing fuel tail with
  | ind n ih =>
    match fuel, n with
    | 0, 0 => rfl
    | fuel + 1, 0 => simp [digitsOnto]
    | fuel + 1, n + 1 =>
      have hdiv : (n + 1) / base < n + 1 := Nat.div_lt_self (Nat.succ_pos n) hbase
      rw [digitsOnto, digitsOnto, if_neg (Nat.succ_ne_zero n),
        if_neg (Nat.succ_ne_zero n)]
      exact (ih _ hdiv (by omega) _).trans (ih _ hdiv (by omega) _).symm

@[simp] theorem digits_zero (base : Nat) : digits base 0 = [] := rfl

/-- The last digit is the remainder and the others are the digits of the quotient. -/
theorem digits_of_pos {base : Nat} (hbase : 2 ≤ base) {n : Nat} (hn : 0 < n) :
    digits base n = digits base (n / base) ++ [n % base] := by
  match n with
  | n + 1 =>
    have hdiv : (n + 1) / base < n + 1 := Nat.div_lt_self (Nat.succ_pos n) hbase
    rw [digits, digitsOnto, if_neg (Nat.succ_ne_zero n), digitsOnto_append,
      digitsOnto_fuel hbase (by omega), ← digits]

theorem value_digits {base : Nat} (hbase : 2 ≤ base) (n : Nat) :
    value base (digits base n) = n := by
  induction n using Nat.strongRecOn with
  | ind n ih =>
    match n with
    | 0 => rfl
    | n + 1 =>
      rw [digits_of_pos hbase (Nat.succ_pos n), value_concat,
        ih _ (Nat.div_lt_self (Nat.succ_pos n) hbase)]
      exact Nat.div_add_mod' _ _

theorem digits_lt {base : Nat} (hbase : 2 ≤ base) (n : Nat) :
    ∀ d ∈ digits base n, d < base := by
  induction n using Nat.strongRecOn with
  | ind n ih =>
    match n with
    | 0 => simp
    | n + 1 =>
      rw [digits_of_pos hbase (Nat.succ_pos n)]
      intro d hd
      rcases List.mem_append.mp hd with hd | hd
      · exact ih _ (Nat.div_lt_self (Nat.succ_pos n) hbase) d hd
      · rw [List.mem_singleton.mp hd]
        exact Nat.mod_lt _ (by omega)

/-- A digit list of the base that does not start with zero is the digit list of
its value. -/
theorem digits_value {base : Nat} (hbase : 2 ≤ base) (ds : List Nat)
    (hds : ∀ d ∈ ds, d < base)
    (hhead : ds.head? ≠ some 0) : digits base (value base ds) = ds := by
  induction h : ds.length generalizing ds with
  | zero => simp [List.length_eq_zero_iff.mp h]
  | succ k ih =>
    obtain ⟨init, d, rfl⟩ : ∃ init d, ds = init ++ [d] :=
      ⟨_, _, (List.dropLast_concat_getLast (List.ne_nil_of_length_eq_add_one h)).symm⟩
    have hd : d < base := hds d (by simp)
    have hinit : digits base (value base init) = init := by
      refine ih init (fun x hx => hds x (by simp [hx])) ?_ (by simpa using h)
      cases init with
      | nil => simp
      | cons x xs => simpa using hhead
    have hpos : 0 < value base init * base + d := by
      cases init with
      | nil =>
        have : d ≠ 0 := by simpa using hhead
        simp [value]; omega
      | cons x xs =>
        have hv : value base (x :: xs) ≠ 0 := by
          intro hzero
          rw [hzero] at hinit
          simp at hinit
        have := Nat.mul_pos (Nat.pos_of_ne_zero hv) (by omega : 0 < base)
        omega
    rw [value_concat, digits_of_pos hbase hpos, Nat.mul_comm, Nat.mul_add_div (by omega),
      Nat.mul_add_mod, Nat.div_eq_of_lt hd, Nat.mod_eq_of_lt hd, Nat.add_zero, hinit]

end XrpLedger.Text.Positional
