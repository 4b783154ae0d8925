import XrpLedger.Proofs.AmountWords
import XrpLedger.Proofs.CurrencyText
import XrpLedger.Proofs.Headers

/-!
# Spellings of scalars

The octet strings that are read as a scalar. All scalars have one spelling, but for the
native amount of nothing, which has two.

- `Amount.Spells`, `Scalar.Spells`: the spellings of a value.
- `PathSet.octets`: the spelling of a path set, which has at least one path and no empty
  step.
- `Read.reads_amount`, `Read.reads_pathSet`, `Read.reads_vector256` and their like: every
  read of a scalar takes exactly the spellings.
-/

namespace XrpLedger

namespace Bytes

/-- The most significant digit of `ofNat` stands in front. -/
theorem ofNat_succ_eq_cons (width n : Nat) :
    ofNat (width + 1) n = UInt8.ofNat (n / 256 ^ width) :: ofNat width n := by
  induction width generalizing n with
  | zero => simp [ofNat]
  | succ width ih =>
    have hlast : ofNat (width + 1) n = ofNat width (n / 256) ++ [UInt8.ofNat n] := rfl
    rw [ofNat, ih, List.cons_append, hlast, Nat.div_div_eq_div_mul, Nat.pow_succ']

end Bytes

/-! ## Numbers -/

namespace Read

variable {n : Nat}

/-- Words of a width are read from their big-endian digits `Bytes.ofNat`. -/
theorem reads_word {α : Type} {ofNat : Nat → α} {toNat : α → Nat} {width : Nat}
    (toNat_lt : ∀ v, toNat v < 256 ^ width)
    (toNat_ofNat : ∀ k < 256 ^ width, toNat (ofNat k) = k)
    (ofNat_toNat : ∀ v, ofNat (toNat v) = v) :
    Reads n (number width >>= fun k => pure (ofNat k)) fun v u =>
      u = Bytes.ofNat width (toNat v) := by
  refine ((reads_number width).map ofNat).congr fun v u => ?_
  rw [Bytes.eq_ofNat_iff (toNat_lt v)]
  constructor
  · rintro ⟨_, ⟨hlength, rfl⟩, rfl⟩
    refine ⟨hlength, (toNat_ofNat _ ?_).symm⟩
    rw [← hlength]
    exact Bytes.toNat_lt u
  · rintro ⟨hlength, hv⟩
    exact ⟨_, ⟨hlength, rfl⟩, by rw [hv, ofNat_toNat]⟩

theorem reads_uint8 : Reads n uint8 fun v u => u = Bytes.ofNat 1 v.toNat :=
  reads_word UInt8.toNat_lt (fun _ hk => UInt8.toNat_ofNat_of_lt' hk) fun _ =>
    UInt8.ofNat_toNat

theorem reads_uint16 : Reads n uint16 fun v u => u = Bytes.ofNat 2 v.toNat :=
  reads_word UInt16.toNat_lt (fun _ hk => UInt16.toNat_ofNat_of_lt' hk) fun _ =>
    UInt16.ofNat_toNat

theorem reads_uint32 : Reads n uint32 fun v u => u = Bytes.ofNat 4 v.toNat :=
  reads_word UInt32.toNat_lt (fun _ hk => UInt32.toNat_ofNat_of_lt' hk) fun _ =>
    UInt32.ofNat_toNat

theorem reads_uint64 : Reads n uint64 fun v u => u = Bytes.ofNat 8 v.toNat :=
  reads_word UInt64.toNat_lt (fun _ hk => UInt64.toNat_ofNat_of_lt' hk) fun _ =>
    UInt64.ofNat_toNat

end Read

/-! ## Identifiers -/

theorem AccountId.ofBytes_eq_ok {bs : Bytes} {a : AccountId} :
    AccountId.ofBytes bs = .ok a ↔ a.toBytes = bs := by
  obtain ⟨raw⟩ := a
  rw [AccountId.toBytes, ← FixedBytes.ofBytes_eq_ok]
  unfold AccountId.ofBytes
  split <;> simp [*]

theorem AccountId.length_toBytes (a : AccountId) : a.toBytes.length = 20 :=
  a.raw.length_eq

namespace Read

variable {n : Nat}

theorem reads_bareAccountId : Reads n bareAccountId fun a u => u = a.toBytes := by
  refine ((reads_take 20).bind_lift AccountId.ofBytes).congr fun a u => ?_
  constructor
  · rintro ⟨bs, ⟨rfl, -⟩, h⟩
    exact (AccountId.ofBytes_eq_ok.mp h).symm
  · rintro rfl
    exact ⟨_, ⟨rfl, a.length_toBytes⟩, AccountId.ofBytes_eq_ok.mpr rfl⟩

theorem reads_currencyCode : Reads n currencyCode fun c u => u = c.toBytes := by
  refine ((reads_take 20).bind_lift CurrencyCode.ofBytes).congr fun c u => ?_
  constructor
  · rintro ⟨bs, ⟨rfl, -⟩, h⟩
    exact (CurrencyCode.ofBytes_eq_ok.mp h).symm
  · rintro rfl
    exact ⟨_, ⟨rfl, c.length_toBytes⟩, CurrencyCode.ofBytes_eq_ok.mpr rfl⟩

theorem reads_accountId :
    Reads n accountId fun a u => u = Length.octets 20 ++ a.toBytes := by
  refine (reads_payload.bind_lift AccountId.ofBytes).congr fun a u => ?_
  constructor
  · rintro ⟨bs, ⟨-, rfl⟩, h⟩
    rw [← AccountId.ofBytes_eq_ok.mp h, a.length_toBytes]
  · rintro rfl
    refine ⟨a.toBytes, ⟨?_, ?_⟩, AccountId.ofBytes_eq_ok.mpr rfl⟩
    · rw [a.length_toBytes]
      decide
    · rw [a.length_toBytes]

end Read

/-! ## Amounts -/

/-- The octet strings that are read as an amount. -/
def Amount.Spells : Amount → Bytes → Prop
  | .native d, u => u = (Amount.native d).toBytes ∨ (d.count = 0 ∧ u = List.replicate 8 0)
  | .issued a, u => a.value.Normal ∧ u = a.toBytes

/-- An amount that `make` makes has the three parts that it is given. -/
theorem IssuedAmount.make_eq_ok {value : IssuedValue} {currency : CurrencyCode}
    {issuer : AccountId} {a : IssuedAmount} :
    IssuedAmount.make value currency issuer = .ok a ↔
      a.value = value ∧ a.currency = currency ∧ a.issuer = issuer := by
  obtain ⟨v, c, i, hxrp⟩ := a
  unfold IssuedAmount.make
  split
  · next h =>
    simp only [Except.ok.injEq, IssuedAmount.mk.injEq]
    grind
  · next h =>
    simp only [reduceCtorEq, false_iff]
    rintro ⟨-, rfl, -⟩
    exact h hxrp

namespace Read

variable {n : Nat}

/-- The read `drops` takes the spellings of native amounts. -/
theorem reads_drops : Reads n drops fun d u => (Amount.native d).Spells u := by
  refine (reads_uint64.bind_lift Drops.ofWord).congr fun d u => ?_
  simp only [Drops.ofWord_eq_ok, Amount.Spells, Amount.toBytes]
  constructor
  · rintro ⟨word, rfl, rfl | ⟨rfl, hd⟩⟩
    · exact .inl rfl
    · exact .inr ⟨hd, rfl⟩
  · rintro (rfl | ⟨hd, rfl⟩)
    · exact ⟨_, rfl, .inl rfl⟩
    · exact ⟨0, rfl, .inr ⟨rfl, hd⟩⟩

/-- The read `issuedAmount` takes the spellings of issued amounts. -/
theorem reads_issuedAmount :
    Reads n issuedAmount fun a u => (Amount.issued a).Spells u := by
  have hread := reads_uint64 (n := n) |>.bind fun word =>
    (reads_lift (IssuedValue.ofWord word)).bind fun value =>
      reads_currencyCode.bind fun currency =>
        reads_bareAccountId.bind_lift fun issuer =>
          IssuedAmount.make value currency issuer
  refine hread.congr fun a u => ?_
  simp only [IssuedValue.ofWord_eq_ok, IssuedAmount.make_eq_ok, Amount.Spells,
    IssuedAmount.toBytes]
  -- the parts of the read are nested to the right, as the parts of the spelling are
  constructor
  · rintro ⟨_, _, _, rfl, ⟨v, _, _, ⟨⟨hv, rfl⟩, rfl⟩,
      ⟨c, _, _, rfl, ⟨i, rfl, hvalue, hcurrency, hissuer⟩, rfl⟩, rfl⟩, rfl⟩
    subst hvalue hcurrency hissuer
    exact ⟨hv, rfl⟩
  · rintro ⟨hv, rfl⟩
    exact ⟨a.value.toWord, _, _, rfl, ⟨a.value, [], _, ⟨⟨hv, rfl⟩, rfl⟩,
      ⟨a.currency, _, _, rfl, ⟨a.issuer, rfl, rfl, rfl, rfl⟩, rfl⟩, rfl⟩, rfl⟩

end Read

/-- The first octet of what `Spells` an amount tells native amounts from issued ones. -/
theorem Amount.Spells.head {a : Amount} {u : Bytes} (h : a.Spells u) :
    ∃ b w, u = b :: w ∧ (b < 0x80 ↔ a.isXrp) := by
  have hoctet : ∀ n : Nat, n < 2 ^ 64 →
      (UInt8.ofNat (n / 256 ^ 7) < 0x80 ↔ n < 2 ^ 63) := by
    intro n hn
    simp only [UInt8.lt_iff_toNat_lt, UInt8.toNat_ofNat', UInt8.reduceToNat]
    omega
  cases a with
  | native d =>
    -- no more drops are counted than fit below the two top bits
    have hcount := d.count_le
    unfold Drops.maxCount at hcount
    rcases h with rfl | ⟨-, rfl⟩
    · refine ⟨_, _, Bytes.ofNat_succ_eq_cons 7 _, ?_⟩
      rw [hoctet _ (UInt64.toNat_lt _), Drops.toNat_toWord]
      unfold AmountWord.positiveBit
      simp only [isXrp, iff_true]
      omega
    · exact ⟨0, List.replicate 7 0, rfl, by simp [isXrp]⟩
  | issued a =>
    obtain ⟨hv, rfl⟩ := h
    refine ⟨_, _, by rw [IssuedAmount.toBytes, Bytes.ofNat_succ_eq_cons 7,
      List.cons_append], ?_⟩
    rw [hoctet _ (UInt64.toNat_lt _)]
    simp only [isXrp, Bool.false_eq_true, iff_false, Nat.not_lt]
    exact a.value.issuedBit_le_toWord hv

namespace Read

variable {n : Nat}

theorem reads_amount : Reads n amount Amount.Spells := by
  intro c hc a c'
  unfold amount
  cases hrest : c.rest with
  | nil =>
    have hpeek : peek c = (.error (.unexpectedEof 1 0), c) := by simp [peek, hrest]
    rw [bind_error hpeek]
    constructor
    · intro h
      cases h
    · rintro ⟨u, hu, hpast⟩
      obtain ⟨b, w, rfl, -⟩ := hu.head
      have hempty := hpast.1
      rw [hrest] at hempty
      cases hempty
  | cons b bs =>
    have hpeek : peek c = (.ok b, c) := by simp [peek, hrest]
    -- every spelling of the result begins with the octet that was seen
    have hsign : ∀ u, a.Spells u → c.Past u c' → (b < 0x80 ↔ a.isXrp) := by
      intro u hu hpast
      obtain ⟨b', w, rfl, hb'⟩ := hu.head
      have hfirst := hpast.1
      rw [hrest] at hfirst
      cases hfirst
      exact hb'
    rw [bind_ok hpeek]
    split
    · next hb =>
      rw [(reads_drops.map Amount.native) c hc a c']
      constructor
      · rintro ⟨u, ⟨d, hu, rfl⟩, hpast⟩
        exact ⟨u, hu, hpast⟩
      · rintro ⟨u, hu, hpast⟩
        cases a with
        | native d => exact ⟨u, ⟨d, hu, rfl⟩, hpast⟩
        | issued a => exact absurd ((hsign u hu hpast).mp hb) Bool.false_ne_true
    · next hb =>
      rw [(reads_issuedAmount.map Amount.issued) c hc a c']
      constructor
      · rintro ⟨u, ⟨d, hu, rfl⟩, hpast⟩
        exact ⟨u, hu, hpast⟩
      · rintro ⟨u, hu, hpast⟩
        cases a with
        | native d => exact absurd ((hsign u hu hpast).mpr rfl) hb
        | issued a => exact ⟨u, ⟨a, hu, rfl⟩, hpast⟩

end Read

/-! ## Path sets -/

namespace PathStep

/-- The octets of a step with at least one member. -/
def octets (s : PathStep) : Bytes :=
  s.bits :: s.members

/-- The bits of all members. -/
def allBits : UInt8 :=
  accountBit ||| currencyBit ||| issuerBit

/-- An octet without foreign bits is made of the bits of the members. -/
theorem eq_of_foreign_eq_zero :
    ∀ k < 256, UInt8.ofNat k &&& ~~~allBits = 0 →
      UInt8.ofNat k =
        (if UInt8.ofNat k &&& accountBit = 0 then 0 else accountBit) |||
          (if UInt8.ofNat k &&& currencyBit = 0 then 0 else currencyBit) |||
            (if UInt8.ofNat k &&& issuerBit = 0 then 0 else issuerBit) := by
  decide +kernel

/-- The bits of a step tell which members it has. -/
theorem bits_eq_iff {s : PathStep} {b : UInt8} :
    s.bits = b ↔ b &&& ~~~allBits = 0 ∧ (s.account.isSome ↔ b &&& accountBit ≠ 0) ∧
      (s.currency.isSome ↔ b &&& currencyBit ≠ 0) ∧
      (s.issuer.isSome ↔ b &&& issuerBit ≠ 0) := by
  unfold bits
  constructor
  · rintro rfl
    cases s.account.isSome <;> cases s.currency.isSome <;> cases s.issuer.isSome
      <;> decide
  · rintro ⟨hforeign, haccount, hcurrency, hissuer⟩
    have hb := eq_of_foreign_eq_zero b.toNat b.toNat_lt
    rw [UInt8.ofNat_toNat] at hb
    rw [hb hforeign]
    simp only [haccount, hcurrency, hissuer, ne_eq, ite_not]

theorem bits_ne_separator (s : PathStep) : s.bits ≠ PathSet.separator := by
  intro h
  have hforeign := (bits_eq_iff.mp h).1
  revert hforeign
  decide

end PathStep

namespace PathSet

/-- The octets of a path and of the paths behind it. -/
def octets : Path → List Path → Bytes
  | p, [] => p.flatMap PathStep.octets ++ [terminator]
  | p, q :: rest => p.flatMap PathStep.octets ++ separator :: octets q rest

theorem octets_cons (s : PathStep) (p : Path) (rest : List Path) :
    octets (s :: p) rest = s.octets ++ octets p rest := by
  cases rest <;> simp [octets]

/-- Every step of a list of paths has a member. -/
def Stepped (paths : List Path) : Prop :=
  ∀ p ∈ paths, ∀ s ∈ p, s.bits ≠ 0

theorem stepped_nil : Stepped [] := by simp [Stepped]

theorem stepped_cons_nil {rest : List Path} : Stepped ([] :: rest) ↔ Stepped rest := by
  simp [Stepped]

theorem stepped_cons_cons {s : PathStep} {p : Path} {rest : List Path} :
    Stepped ((s :: p) :: rest) ↔ s.bits ≠ terminator ∧ Stepped (p :: rest) := by
  simp only [Stepped, List.forall_mem_cons, and_assoc]
  rfl

end PathSet

namespace Read

variable {n : Nat} {α : Type}

theorem Reads.ite {p : Prop} [Decidable p] {m m' : Read α} {S S' : α → Bytes → Prop}
    (hm : Reads n m S) (hm' : Reads n m' S') :
    Reads n (if p then m else m') fun a u => if p then S a u else S' a u := by
  split
  · exact hm
  · exact hm'

theorem reads_member (bits bit : UInt8) {read : Read α} {form : α → Bytes}
    (hread : Reads n read fun a u => u = form a) :
    Reads n (member bits bit read) fun o u =>
      (o.isSome ↔ bits &&& bit ≠ 0) ∧ u = (o.map form).getD [] := by
  refine (Reads.ite (reads_pure none) (hread.map some)).congr fun o u => ?_
  split
  · next hbit => cases o <;> simp [hbit]
  · next hbit => cases o <;> simp [hbit]

theorem reads_pathStep (bits : UInt8) :
    Reads n (pathStep bits) fun s u => s.bits = bits ∧ u = s.members := by
  have hmembers := reads_member (n := n) bits PathStep.accountBit reads_bareAccountId
    |>.bind fun account =>
      (reads_member bits PathStep.currencyBit reads_currencyCode).bind fun currency =>
        (reads_member bits PathStep.issuerBit reads_bareAccountId).map
          fun issuer => PathStep.mk account currency issuer
  refine (Reads.ite (reads_fail _) hmembers).congr fun s u => ?_
  rw [PathStep.bits_eq_iff]
  split
  · next hforeign =>
    rw [false_iff]
    rintro ⟨⟨h, -⟩, -⟩
    exact hforeign h
  · next hforeign =>
    constructor
    · rintro ⟨account, _, _, ⟨haccount, rfl⟩, ⟨currency, _, _, ⟨hcurrency, rfl⟩, ⟨issuer,
        ⟨hissuer, rfl⟩, rfl⟩, rfl⟩, rfl⟩
      exact ⟨⟨not_not.mp hforeign, haccount, hcurrency, hissuer⟩, rfl⟩
    · rintro ⟨⟨-, haccount, hcurrency, hissuer⟩, rfl⟩
      exact ⟨s.account, _, _, ⟨haccount, rfl⟩,
        ⟨s.currency, _, _, ⟨hcurrency, rfl⟩, ⟨s.issuer, ⟨hissuer, rfl⟩, rfl⟩, rfl⟩, rfl⟩

/-- Paths are read octet for octet: a terminator, a separator or the bits of a step come
first. -/
theorem reads_paths (rounds : Nat) :
    Reads rounds (paths rounds) fun r u =>
      PathSet.Stepped (r.1 :: r.2) ∧ u = PathSet.octets r.1 r.2 := by
  induction rounds with
  | zero =>
    intro c hc
    cases hc
  | succ rounds ih =>
    have hseparator := ih.map fun more => (([] : Path), more.1 :: more.2)
    have hstep := fun bits => (reads_pathStep (n := rounds) bits).bind fun step =>
      ih.map fun more => (step :: more.1, more.2)
    have hrounds := reads_uint8 (n := rounds + 1) |>.bind_of_length
      (fun bits => Reads.ite (p := bits = PathSet.terminator) (reads_pure ([], []))
        (Reads.ite (p := bits = PathSet.separator) hseparator (hstep bits)))
      (by rintro bits _ rfl; simp)
    refine hrounds.congr fun r u => ?_
    obtain ⟨p, ps⟩ := r
    constructor
    · rintro ⟨bits, _, v, rfl, h, rfl⟩
      split at h
      · -- the last path ends
        next hterminator =>
        obtain ⟨hr, rfl⟩ := h
        cases hr
        subst hterminator
        exact ⟨PathSet.stepped_cons_nil.mpr PathSet.stepped_nil, rfl⟩
      · next hterminator =>
        split at h
        · -- this path ends, and another one begins
          next hseparator =>
          obtain ⟨more, ⟨hstepped, rfl⟩, hr⟩ := h
          cases hr
          subst hseparator
          exact ⟨PathSet.stepped_cons_nil.mpr hstepped, rfl⟩
        · -- a step of this path
          obtain ⟨step, _, w, ⟨rfl, rfl⟩, ⟨more, ⟨hstepped, rfl⟩, hr⟩, rfl⟩ := h
          cases hr
          refine ⟨PathSet.stepped_cons_cons.mpr ⟨hterminator, hstepped⟩, ?_⟩
          simp [PathSet.octets_cons, PathStep.octets, Bytes.ofNat]
    · rintro ⟨hstepped, rfl⟩
      cases p with
      | nil =>
        cases ps with
        | nil => exact ⟨PathSet.terminator, _, [], rfl, ⟨rfl, rfl⟩, rfl⟩
        | cons q rest =>
          refine ⟨PathSet.separator, _, PathSet.octets q rest, rfl, ?_, rfl⟩
          rw [if_neg (by decide), if_pos rfl]
          exact ⟨(q, rest), ⟨PathSet.stepped_cons_nil.mp hstepped, rfl⟩, rfl⟩
      | cons s p =>
        obtain ⟨hs, hstepped⟩ := PathSet.stepped_cons_cons.mp hstepped
        refine ⟨s.bits, _, s.members ++ PathSet.octets p ps, rfl, ?_, ?_⟩
        · rw [if_neg hs, if_neg s.bits_ne_separator]
          exact ⟨s, _, _, ⟨rfl, rfl⟩, ⟨(p, ps), ⟨hstepped, rfl⟩, rfl⟩, rfl⟩
        · simp [PathSet.octets_cons, PathStep.octets, Bytes.ofNat]

/-- The read `pathSet` takes the spelling of a path set that has a path. -/
theorem reads_pathSet (rounds : Nat) :
    Reads rounds (pathSet rounds) fun paths u =>
      ∃ p rest, paths = p :: rest ∧ PathSet.Stepped paths ∧
      u = PathSet.octets p rest := by
  refine ((reads_paths rounds).map fun more => more.1 :: more.2).congr fun paths u => ?_
  constructor
  · rintro ⟨⟨p, rest⟩, ⟨hstepped, rfl⟩, rfl⟩
    exact ⟨p, rest, rfl, hstepped, rfl⟩
  · rintro ⟨p, rest, rfl, hstepped, rfl⟩
    exact ⟨(p, rest), ⟨hstepped, rfl⟩, rfl⟩

/-! ## Lists of hashes -/

/-- Octets are cut by `hashesOf` into hashes that make them up. -/
theorem hashesOf_eq_ok {count : Nat} {bs : Bytes} (hashes : List Hash256)
    (hlength : bs.length = 32 * count) :
    hashesOf count bs = .ok hashes ↔ bs = hashes.flatMap FixedBytes.toList := by
  induction count generalizing bs hashes with
  | zero =>
    have hbs : bs = [] := List.eq_nil_of_length_eq_zero hlength
    subst hbs
    cases hashes with
    | nil => simp [hashesOf]
    | cons h hs =>
      simp only [hashesOf, Except.ok.injEq, reduceCtorEq, List.flatMap_cons, List.nil_eq,
        List.append_eq_nil_iff, false_iff, not_and]
      intro hnil
      have hwidth := h.length_eq
      rw [hnil] at hwidth
      cases hwidth
  | succ count ih =>
    have hfront : (bs.take 32).length = 32 := by
      rw [List.length_take]
      omega
    have hfirst : FixedBytes.ofBytes 32 (bs.take 32) = .ok ⟨bs.take 32, hfront⟩ :=
      FixedBytes.ofBytes_eq_ok.mpr rfl
    have hdrop : (bs.drop 32).length = 32 * count := by
      rw [List.length_drop]
      omega
    simp only [hashesOf, hfirst]
    cases hashes with
    | nil =>
      have hne : bs ≠ [] := by
        rintro rfl
        simp at hlength
      split <;> simp_all
    | cons h hs =>
      have hsplit : bs = (h :: hs).flatMap FixedBytes.toList ↔
          ⟨bs.take 32, hfront⟩ = h ∧ bs.drop 32 = hs.flatMap FixedBytes.toList := by
        rw [FixedBytes.ext_iff, List.flatMap_cons]
        show bs = h.toList ++ _ ↔ bs.take 32 = h.toList ∧ bs.drop 32 = _
        constructor
        · rintro rfl
          exact ⟨List.take_left' h.length_eq, List.drop_left' h.length_eq⟩
        · rintro ⟨htake, hdrop⟩
          rw [← htake, ← hdrop, List.take_append_drop]
      rw [hsplit, ← ih hs hdrop]
      cases hashesOf count (bs.drop 32) with
      | ok more => simp
      | error e => simp

/-- The read `vector256` takes the octets of hashes behind their length. -/
theorem reads_vector256 :
    Reads n vector256 fun hashes u =>
      (hashes.flatMap FixedBytes.toList).length ≤ Length.readLimit ∧
        u = Length.octets (hashes.flatMap FixedBytes.toList).length ++
          hashes.flatMap FixedBytes.toList := by
  have hlengths : ∀ hashes : List Hash256,
      (hashes.flatMap FixedBytes.toList).length % 32 = 0 := by
    intro hashes
    induction hashes with
    | nil => rfl
    | cons h hs ih =>
      rw [List.flatMap_cons, List.length_append, h.length_eq]
      omega
  refine (reads_payload.bind fun bs =>
    Reads.ite (p := bs.length % 32 = 0) (reads_lift _) (reads_fail _)).congr
      fun hashes u => ?_
  constructor
  · rintro ⟨bs, _, v, ⟨hlimit, rfl⟩, h, rfl⟩
    split at h
    · next hmod =>
      obtain ⟨hhashes, rfl⟩ := h
      rw [hashesOf_eq_ok _ (by omega)] at hhashes
      subst hhashes
      exact ⟨hlimit, List.append_nil _⟩
    · exact h.elim
  · rintro ⟨hlimit, rfl⟩
    refine ⟨_, _, [], ⟨hlimit, rfl⟩, ?_, (List.append_nil _).symm⟩
    have hmod := hlengths hashes
    rw [if_pos hmod]
    exact ⟨(hashesOf_eq_ok _ (by omega)).mpr rfl, rfl⟩

end Read

/-! ## Scalars -/

/-- The octet strings that are read as a scalar. -/
def Scalar.Spells : Scalar → Bytes → Prop
  | .uint8 v, u => u = Bytes.ofNat 1 v.toNat
  | .uint16 v, u => u = Bytes.ofNat 2 v.toNat
  | .uint32 v, u => u = Bytes.ofNat 4 v.toNat
  | .uint64 v, u => u = Bytes.ofNat 8 v.toNat
  | .hash128 h, u => u = h.toList
  | .hash160 h, u => u = h.toList
  | .hash256 h, u => u = h.toList
  | .amount a, u => a.Spells u
  | .blob bs, u => bs.length ≤ Length.readLimit ∧ u = Length.octets bs.length ++ bs
  | .accountId a, u => u = Length.octets 20 ++ a.toBytes
  | .pathSet paths, u =>
    ∃ p rest, paths = p :: rest ∧ PathSet.Stepped paths ∧ u = PathSet.octets p rest
  | .vector256 hashes, u =>
    (hashes.flatMap FixedBytes.toList).length ≤ Length.readLimit ∧
      u = Length.octets (hashes.flatMap FixedBytes.toList).length ++
        hashes.flatMap FixedBytes.toList

end XrpLedger
