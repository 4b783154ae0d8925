import XrpLedger.Wire.Reader

/-!
# What a read accepts

A read is described by the octet strings that it takes for each value. The description is
exact: the read yields a value if and only if such a string stands at the cursor, and then
it ends right behind it.

- `Cursor.Past`: one cursor stands behind given octets of another.
- `Read.Reads`: the exact description of a read, for cursors with fewer octets than a
  bound. Reads that count their rounds need the bound.
- `Reads.bind`, `Reads.map`, `Reads.bind_lift`: the description of a sequence, from those
  of its parts.
-/

namespace XrpLedger

namespace Cursor

/-- The place `c'` is the one behind the octets `u`, which stand at `c`. -/
def Past (c : Cursor) (u : Bytes) (c' : Cursor) : Prop :=
  c.rest = u ++ c'.rest ∧ c'.position = c.position + u.length ∧ c'.depth = c.depth

variable {c c' c'' : Cursor} {u w : Bytes}

/-- Nothing is passed in place. -/
theorem past_nil : c.Past [] c' ↔ c' = c := by
  obtain ⟨rest, position, depth⟩ := c
  obtain ⟨rest', position', depth'⟩ := c'
  constructor
  · rintro ⟨hrest, hposition, hdepth⟩
    simp only [List.nil_append, List.length_nil, Nat.add_zero] at hrest hposition hdepth
    rw [hrest, hposition, hdepth]
  · intro h
    cases h
    exact ⟨rfl, rfl, rfl⟩

/-- What is passed part by part is passed as a whole. -/
theorem Past.trans (h : c.Past u c') (h' : c'.Past w c'') : c.Past (u ++ w) c'' := by
  obtain ⟨hrest, hposition, hdepth⟩ := h
  obtain ⟨hrest', hposition', hdepth'⟩ := h'
  refine ⟨?_, ?_, hdepth'.trans hdepth⟩
  · rw [hrest, hrest', List.append_assoc]
  · rw [hposition', hposition, List.length_append, Nat.add_assoc]

/-- The octets in front can be passed one part after the other: `Past` of a sequence is
that of its parts. -/
theorem past_append : c.Past (u ++ w) c'' ↔ ∃ c', c.Past u c' ∧ c'.Past w c'' := by
  constructor
  -- the place between the parts
  · rintro ⟨hrest, hposition, hdepth⟩
    refine ⟨⟨w ++ c''.rest, c.position + u.length, c.depth⟩, ⟨?_, rfl, rfl⟩,
      rfl, ?_, hdepth⟩
    · rw [hrest, List.append_assoc]
    · rw [hposition, List.length_append, Nat.add_assoc]
  · rintro ⟨c', h, h'⟩
    exact h.trans h'

theorem Past.length_eq (h : c.Past u c') : c.rest.length = u.length + c'.rest.length := by
  rw [h.1, List.length_append]

/-- Octets that stand at a cursor are passed by `advance`. -/
theorem past_advance (h : c.rest = u ++ w) : c.Past u (c.advance u.length) := by
  refine ⟨?_, rfl, rfl⟩
  rw [advance, h, List.drop_left]

/-- Only one place is `Past` given octets. -/
theorem Past.unique (h : c.Past u c') (h' : c.Past u c'') : c' = c'' := by
  obtain ⟨rest', position', depth'⟩ := c'
  obtain ⟨rest'', position'', depth''⟩ := c''
  obtain ⟨hrest, hposition, hdepth⟩ := h
  obtain ⟨hrest', hposition', hdepth'⟩ := h'
  have hr : rest' = rest'' := List.append_cancel_left (hrest.symm.trans hrest')
  have hp : position' = position'' := hposition.trans hposition'.symm
  have hd : depth' = depth'' := hdepth.trans hdepth'.symm
  rw [hr, hp, hd]

end Cursor

namespace Read

variable {α β : Type} {n k : Nat}

/-- A sequence yields a value if its parts yield values one after the other. -/
theorem bind_eq_ok {m : Read α} {f : α → Read β} {c c'' : Cursor} {b : β} :
    (m >>= f) c = (.ok b, c'') ↔ ∃ a c', m c = (.ok a, c') ∧ f a c' = (.ok b, c'') := by
  rw [bind_apply]
  cases hm : m c with
  | mk r c' =>
    cases r with
    | ok a =>
      constructor
      · intro h
        exact ⟨a, c', rfl, h⟩
      · rintro ⟨a', c₁, h, h'⟩
        cases h
        exact h'
    | error e =>
      constructor
      · intro h
        cases h
      · rintro ⟨a', c₁, h, -⟩
        cases h

/-- With fewer than `bound` octets left, the read yields `a` if and only if one of the
octet strings `S a` stands at the cursor, and it ends behind it. -/
def Reads (bound : Nat) (m : Read α) (S : α → Bytes → Prop) : Prop :=
  ∀ c : Cursor, c.rest.length < bound → ∀ a c', m c = (.ok a, c') ↔
    ∃ u, S a u ∧ c.Past u c'

variable {m : Read α} {f : α → Read β} {S S' : α → Bytes → Prop}
    {T : α → β → Bytes → Prop}

/-- The octet strings of `Reads` may be described in another way. -/
theorem Reads.congr (h : Reads n m S) (hS : ∀ a u, S a u ↔ S' a u) : Reads n m S' := by
  intro c hc a c'
  rw [h c hc]
  simp only [hS]

theorem Reads.mono (h : Reads n m S) (hk : k ≤ n) : Reads k m S :=
  fun c hc => h c (Nat.lt_of_lt_of_le hc hk)

/-- The second part of a sequence may count on a lesser bound for its `Reads`, if the
first part takes the difference. -/
theorem Reads.bind_of_length (hm : Reads n m S) (hf : ∀ a, Reads k (f a) (T a))
    (hlength : ∀ a u, S a u → n ≤ k + u.length) :
    Reads n (m >>= f) fun b w => ∃ a u v, S a u ∧ T a b v ∧ w = u ++ v := by
  intro c hc b c''
  rw [bind_eq_ok]
  constructor
  · rintro ⟨a, c', ha, hb⟩
    obtain ⟨u, hu, hpast⟩ := (hm c hc a c').mp ha
    -- what the first part takes is not left for the second
    have hc' : c'.rest.length < k := by
      have := hpast.length_eq
      have := hlength a u hu
      omega
    obtain ⟨v, hv, hpast'⟩ := (hf a c' hc' b c'').mp hb
    exact ⟨u ++ v, ⟨a, u, v, hu, hv, rfl⟩, hpast.trans hpast'⟩
  · rintro ⟨w, ⟨a, u, v, hu, hv, rfl⟩, hpast⟩
    obtain ⟨c', hpast, hpast'⟩ := Cursor.past_append.mp hpast
    have hc' : c'.rest.length < k := by
      have := hpast.length_eq
      have := hlength a u hu
      omega
    exact ⟨a, c', (hm c hc a c').mpr ⟨u, hu, hpast⟩,
      (hf a c' hc' b c'').mpr ⟨v, hv, hpast'⟩⟩

/-- A sequence of reads takes an octet string for each, one behind the other. -/
theorem Reads.bind (hm : Reads n m S) (hf : ∀ a, Reads n (f a) (T a)) :
    Reads n (m >>= f) fun b w => ∃ a u v, S a u ∧ T a b v ∧ w = u ++ v :=
  hm.bind_of_length hf fun _ _ _ => Nat.le_add_right ..

/-- A read that is `pure` takes no octets. -/
theorem reads_pure (a : α) : Reads n (pure a) fun b u => b = a ∧ u = [] := by
  intro c _ b c'
  rw [pure_apply]
  constructor
  · intro h
    cases h
    exact ⟨[], ⟨rfl, rfl⟩, Cursor.past_nil.mpr rfl⟩
  · rintro ⟨u, ⟨rfl, rfl⟩, h⟩
    rw [Cursor.past_nil.mp h]

/-- A read whose outcome is given by `lift` takes no octets. -/
theorem reads_lift (r : Except CodecError α) :
    Reads n (lift r) fun b u => r = .ok b ∧ u = [] := by
  intro c _ b c'
  rw [lift_apply]
  constructor
  · intro h
    cases h
    exact ⟨[], ⟨rfl, rfl⟩, Cursor.past_nil.mpr rfl⟩
  · rintro ⟨u, ⟨rfl, rfl⟩, h⟩
    rw [Cursor.past_nil.mp h]

theorem reads_fail (e : CodecError) : Reads n (fail e : Read α) fun _ _ => False := by
  intro c _ b c'
  simp [fail_apply]

/-- What is read is turned into another value by a function `g`. -/
theorem Reads.map (hm : Reads n m S) (g : α → β) :
    Reads n (m >>= fun a => pure (g a)) fun b u => ∃ a, S a u ∧ b = g a := by
  refine (hm.bind fun a => reads_pure (g a)).congr fun b w => ?_
  constructor
  · rintro ⟨a, u, v, hu, ⟨rfl, rfl⟩, rfl⟩
    exact ⟨a, by rwa [List.append_nil], rfl⟩
  · rintro ⟨a, hu, rfl⟩
    exact ⟨a, w, [], hu, ⟨rfl, rfl⟩, (List.append_nil w).symm⟩

/-- What is read is turned into another value by `g`, which may refuse it. -/
theorem Reads.bind_lift (hm : Reads n m S) (g : α → Except CodecError β) :
    Reads n (m >>= fun a => lift (g a)) fun b u => ∃ a, S a u ∧ g a = .ok b := by
  refine (hm.bind fun a => reads_lift (g a)).congr fun b w => ?_
  constructor
  · rintro ⟨a, u, v, hu, ⟨hg, rfl⟩, rfl⟩
    exact ⟨a, by rwa [List.append_nil], hg⟩
  · rintro ⟨a, hu, hg⟩
    exact ⟨a, w, [], hu, ⟨hg, rfl⟩, (List.append_nil w).symm⟩

/-! ## Octets -/

/-- The read `take` takes so many octets as they are. -/
theorem reads_take (width : Nat) :
    Reads n (take width) fun bs u => bs = u ∧ u.length = width := by
  intro c _ bs c'
  simp only [take, List.splitAt_eq]
  by_cases hlength : (c.rest.take width).length < width
  · -- too few octets are left
    rw [if_pos hlength]
    constructor
    · intro h
      cases h
    · rintro ⟨u, ⟨rfl, rfl⟩, h⟩
      rw [h.1, List.take_left] at hlength
      exact absurd hlength (Nat.lt_irrefl _)
  · rw [if_neg hlength]
    -- enough octets are left, so what is taken has the width
    have hwidth : (c.rest.take width).length = width := by
      have := List.length_take_le width c.rest
      omega
    have hpast : c.Past (c.rest.take width) ⟨c.rest.drop width,
        c.position + width, c.depth⟩ := by
      refine ⟨(List.take_append_drop width c.rest).symm, ?_, rfl⟩
      rw [hwidth]
    constructor
    · intro h
      cases h
      exact ⟨_, ⟨rfl, hwidth⟩, hpast⟩
    · rintro ⟨u, ⟨rfl, rfl⟩, h⟩
      have hu : c.rest.take bs.length = bs := by rw [h.1, List.take_left]
      rw [hu] at hpast ⊢
      rw [hpast.unique h]

/-- A decoder that takes exactly the octet strings `S` in front makes a read `decoded`
that does so. -/
theorem reads_decoded {decode : Bytes → Except CodecError (α × Nat)}
    (hdecode : ∀ bs a k, decode bs = .ok (a, k) ↔
      ∃ u w, S a u ∧ bs = u ++ w ∧ k = u.length) :
    Reads n (decoded decode) S := by
  intro c _ a c'
  unfold decoded
  constructor
  · intro h
    split at h
    · next b k hb =>
      cases h
      obtain ⟨u, w, hu, hrest, rfl⟩ := (hdecode _ _ _).mp hb
      exact ⟨u, hu, Cursor.past_advance hrest⟩
    · cases h
  · rintro ⟨u, hu, hpast⟩
    have h := (hdecode c.rest a u.length).mpr ⟨u, c'.rest, hu, hpast.1, rfl⟩
    rw [h]
    simp only
    rw [hpast.unique (Cursor.past_advance hpast.1)]

/-- The read `number` takes a number of given width. -/
theorem reads_number (width : Nat) :
    Reads n (number width) fun a u => u.length = width ∧ a = Bytes.toNat u := by
  refine ((reads_take width).map Bytes.toNat).congr fun a u => ?_
  constructor
  · rintro ⟨bs, ⟨rfl, hwidth⟩, rfl⟩
    exact ⟨hwidth, rfl⟩
  · rintro ⟨hwidth, rfl⟩
    exact ⟨u, ⟨rfl, hwidth⟩, rfl⟩

/-- The read `fixed` takes the octets of a `FixedBytes`. -/
theorem reads_fixed (width : Nat) : Reads n (fixed width) fun a u => u = a.toList := by
  refine ((reads_take width).bind_lift (FixedBytes.ofBytes width)).congr fun a u => ?_
  constructor
  · rintro ⟨bs, ⟨rfl, -⟩, h⟩
    exact (FixedBytes.ofBytes_eq_ok.mp h).symm
  · rintro rfl
    exact ⟨a.toList, ⟨rfl, a.length_eq⟩, FixedBytes.ofBytes_eq_ok.mpr rfl⟩

end Read

end XrpLedger
