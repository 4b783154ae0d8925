import Mathlib.Data.List.Induction
import XrpLedger.Proofs.Headers

/-!
# Calls on a cursor

A cursor is moved by one read after the other, some of which fail. Wherever they leave it,
the cursor has passed a front of the octets and is inside no object, so that the next read
finds what it would find at the start of the octets that are left.

- `Read.Advances`: the read passes some of the octets that are left and ends on the level
  where it began, whatever its outcome. Neither outcome nor octets depend on the position.
- `Advances.bind`, `Advances.nested`: the parts of a sequence and what is inside may be
  looked at one by one.
- `Read.advances_at`: inner objects and arrays, level by level.
- `Call`: the reads that a cursor offers. `Call.reached`: where a list of them leads.
- `Cursor.Within`: the invariant, kept by one call (`Call.within_next`) and by all
  (`Call.within_reached`).
- `Call.reached_sound`: what holds after every run.
-/

namespace XrpLedger

namespace Read

variable {α β : Type}

/-- The read passes some of the octets that are left and ends on the level where it began.
Neither its outcome nor the number of octets depends on the position. -/
def Advances (m : Read α) : Prop :=
  ∀ rest depth, ∃ r n, n ≤ rest.length ∧
    ∀ position, m ⟨rest, position, depth⟩ = (r, ⟨rest.drop n, position + n, depth⟩)

/-! ## Sequences -/

theorem advances_lift (r : Except CodecError α) : Advances (lift r) :=
  fun _ _ => ⟨r, 0, Nat.zero_le _, fun _ => rfl⟩

theorem advances_pure (a : α) : Advances (pure a) := advances_lift (.ok a)

theorem advances_fail (e : CodecError) : Advances (fail e : Read α) :=
  advances_lift (.error e)

/-- A sequence `Advances` if its parts do. -/
theorem Advances.bind {m : Read α} {f : α → Read β} (hm : m.Advances)
    (hf : ∀ a, (f a).Advances) :
    (m >>= f).Advances := by
  intro rest depth
  obtain ⟨r, n, hn, hfirst⟩ := hm rest depth
  cases r with
  | error e => exact ⟨.error e, n, hn, fun position => bind_error (hfirst position) f⟩
  | ok a =>
    obtain ⟨r, k, hk, hsecond⟩ := hf a (rest.drop n) depth
    rw [List.length_drop] at hk
    refine ⟨r, n + k, by omega, fun position => ?_⟩
    rw [bind_ok (hfirst position), hsecond, List.drop_drop, Nat.add_assoc]

theorem Advances.map {m : Read α} (hm : m.Advances) (g : α → β) :
    (m >>= fun a => pure (g a)).Advances :=
  hm.bind fun a => advances_pure (g a)

theorem Advances.bind_lift {m : Read α} (hm : m.Advances) (g : α → Except CodecError β) :
    (m >>= fun a => lift (g a)).Advances :=
  hm.bind fun a => advances_lift (g a)

theorem Advances.ite {p : Prop} [Decidable p] {m k : Read α} (hm : m.Advances)
    (hk : k.Advances) :
    (if p then m else k).Advances := by
  by_cases hp : p
  · rw [if_pos hp]
    exact hm
  · rw [if_neg hp]
    exact hk

/-- What is read one level further in by `nested` ends on the level around it. -/
theorem Advances.nested {m : Read α} (hm : m.Advances) : (nested m).Advances := by
  intro rest depth
  obtain ⟨r, n, hn, hinner⟩ := hm rest (depth + 1)
  refine ⟨r, n, hn, fun position => ?_⟩
  rw [Read.nested, hinner]
  rfl

/-- Rounds and levels come from the cursor, by `atCursor`, but not from its position. -/
theorem advances_atCursor {m : (rounds levels : Nat) → Read α}
    (hm : ∀ rounds levels, (m rounds levels).Advances) : (atCursor m).Advances :=
  fun rest depth => hm (rest.length + 1) (maxDepth - depth) rest depth

/-! ## Octets -/

theorem advances_peek : Advances peek := by
  intro rest depth
  cases rest with
  | nil => exact ⟨_, 0, Nat.zero_le _, fun _ => rfl⟩
  | cons b bs => exact ⟨.ok b, 0, Nat.zero_le _, fun _ => rfl⟩

theorem advances_take (width : Nat) : Advances (take width) := by
  intro rest depth
  by_cases hwidth : (rest.take width).length < width
  · refine ⟨.error (.unexpectedEof width rest.length), 0, Nat.zero_le _,
      fun position => ?_⟩
    simp only [take, List.splitAt_eq]
    rw [if_pos hwidth]
    rfl
  · refine ⟨.ok (rest.take width), width, ?_, fun position => ?_⟩
    · rw [List.length_take] at hwidth
      omega
    · simp only [take, List.splitAt_eq]
      rw [if_neg hwidth]

/-- A decoder that takes no more octets than there are makes a read `decoded` that passes
them. -/
theorem advances_decoded {decode : Bytes → Except CodecError (α × Nat)}
    (hle : ∀ bs a k, decode bs = .ok (a, k) → k ≤ bs.length) :
    Advances (decoded decode) := by
  intro rest depth
  cases hdecode : decode rest with
  | error e =>
    refine ⟨.error e, 0, Nat.zero_le _, fun position => ?_⟩
    rw [decoded, hdecode]
    rfl
  | ok found =>
    obtain ⟨a, k⟩ := found
    refine ⟨.ok a, k, hle rest a k hdecode, fun position => ?_⟩
    rw [decoded, hdecode]
    rfl

theorem advances_number (width : Nat) : Advances (number width) :=
  (advances_take width).map Bytes.toNat

theorem advances_uint8 : Advances uint8 := (advances_number 1).map UInt8.ofNat

theorem advances_uint16 : Advances uint16 := (advances_number 2).map UInt16.ofNat

theorem advances_uint32 : Advances uint32 := (advances_number 4).map UInt32.ofNat

theorem advances_uint64 : Advances uint64 := (advances_number 8).map UInt64.ofNat

theorem advances_fixed (n : Nat) : Advances (fixed n) :=
  (advances_take n).bind_lift (FixedBytes.ofBytes n)

/-! ## Headers and payloads -/

theorem advances_header : Advances (decoded FieldId.decode) := by
  refine advances_decoded fun bs id k h => ?_
  obtain ⟨u, w, -, rfl, rfl⟩ := FieldId.encode_of_decode h
  simp

theorem advances_fieldId? : Advances fieldId? := by
  intro rest depth
  cases rest with
  | nil => exact ⟨.ok none, 0, Nat.zero_le _, fun _ => rfl⟩
  | cons b bs => exact advances_header.map some (b :: bs) depth

theorem advances_fieldId : Advances fieldId :=
  advances_fieldId?.bind fun id => by
    cases id with
    | none => exact advances_fail _
    | some id => exact advances_pure id

theorem advances_length : Advances length := by
  refine advances_decoded fun bs n k h => ?_
  obtain ⟨w, -, rfl, rfl⟩ := Length.encode_of_decode h
  simp

theorem advances_payload : Advances payload :=
  advances_length.bind advances_take

theorem advances_accountId : Advances accountId :=
  advances_payload.bind_lift AccountId.ofBytes

/-! ## Scalars -/

theorem advances_bareAccountId : Advances bareAccountId :=
  (advances_take 20).bind_lift AccountId.ofBytes

theorem advances_currencyCode : Advances currencyCode :=
  (advances_take 20).bind_lift CurrencyCode.ofBytes

theorem advances_issuedAmount : Advances issuedAmount :=
  advances_uint64.bind fun word =>
    (advances_lift (IssuedValue.ofWord word)).bind fun value =>
    advances_currencyCode.bind fun currency =>
      advances_bareAccountId.bind_lift fun issuer =>
        IssuedAmount.make value currency issuer

theorem advances_amount : Advances amount :=
  advances_peek.bind fun _ =>
    ((advances_uint64.bind_lift Drops.ofWord).map Amount.native).ite
      (advances_issuedAmount.map Amount.issued)

theorem advances_member (bits bit : UInt8) {m : Read α} (hm : m.Advances) :
    Advances (member bits bit m) :=
  (advances_pure none).ite (hm.map some)

theorem advances_pathStep (bits : UInt8) : Advances (pathStep bits) :=
  (advances_fail _).ite <|
    (advances_member bits _ advances_bareAccountId).bind fun account =>
      (advances_member bits _ advances_currencyCode).bind fun currency =>
        (advances_member bits _ advances_bareAccountId).map fun issuer =>
          PathStep.mk account currency issuer

theorem advances_paths (rounds : Nat) : Advances (paths rounds) := by
  induction rounds with
  | zero => exact advances_fail _
  | succ rounds ih =>
    exact advances_uint8.bind fun bits => (advances_pure _).ite <| (ih.map _).ite <|
      (advances_pathStep bits).bind fun step => ih.map _

theorem advances_pathSet (rounds : Nat) : Advances (pathSet rounds) :=
  (advances_paths rounds).map fun more => more.1 :: more.2

theorem advances_vector256 : Advances vector256 :=
  advances_payload.bind fun _ => (advances_lift _).ite (advances_fail _)

/-! ## Objects and arrays -/

theorem advances_valueWith {object : Read Object} {array : Read Elements}
    (hobject : object.Advances) (harray : array.Advances) (rounds : Nat) (id : FieldId) :
    Advances (valueWith object array rounds id) := by
  unfold valueWith
  refine (advances_fail _).ite ?_
  cases id.kind? with
  | none => exact advances_fail _
  | some kind =>
    cases kind with
    | uint8 => exact advances_uint8.map _
    | uint16 => exact advances_uint16.map _
    | uint32 => exact advances_uint32.map _
    | uint64 => exact advances_uint64.map _
    | hash128 => exact (advances_fixed 16).map _
    | hash160 => exact (advances_fixed 20).map _
    | hash256 => exact (advances_fixed 32).map _
    | amount => exact advances_amount.map _
    | blob => exact advances_payload.map _
    | accountId => exact advances_accountId.map _
    | pathSet => exact (advances_pathSet rounds).map _
    | vector256 => exact advances_vector256.map _
    | object => exact hobject.map _
    | array => exact harray.map _

theorem advances_run {value : FieldId → Read Value} (hvalue : ∀ id, (value id).Advances)
    (ends : Option FieldId) (rounds : Nat) (previous : Option FieldId) :
    Advances (run value ends rounds previous) := by
  induction rounds generalizing previous with
  | zero => exact advances_fail _
  | succ rounds ih =>
    refine advances_fieldId?.bind fun next => ?_
    cases next with
    | none => exact (advances_pure []).ite (advances_fail _)
    | some id =>
      exact (advances_pure []).ite <| (advances_lift _).bind fun _ =>
        (hvalue id).bind fun v => (ih (some id)).map _

theorem advances_elements {object : Read Object} (hobject : object.Advances)
    (rounds : Nat) :
    Advances (elements object rounds) := by
  induction rounds with
  | zero => exact advances_fail _
  | succ rounds ih =>
    exact advances_fieldId.bind fun id =>
      (advances_pure []).ite <| (advances_fail _).ite <|
      hobject.bind fun o => ih.map _

/-- Inner objects and arrays end on the level around them, however many levels
are left. -/
theorem advances_at (rounds : Nat) :
    ∀ levels, (objectAt rounds levels).Advances ∧ (arrayAt rounds levels).Advances
  | 0 => by
    rw [objectAt, arrayAt]
    exact ⟨advances_fail _, advances_fail _⟩
  | levels + 1 => by
    obtain ⟨hobject, harray⟩ := advances_at rounds levels
    rw [objectAt, arrayAt]
    exact ⟨(advances_run (advances_valueWith hobject harray rounds) _ rounds none).nested,
      (advances_elements hobject rounds).nested⟩

theorem advances_valueAt (rounds levels : Nat) (id : FieldId) :
    Advances (valueAt rounds levels id) :=
  advances_valueWith (advances_at rounds levels).1 (advances_at rounds levels).2 rounds id

/-! ## Failures that move nothing -/

/-- The read leaves the cursor in its place if it fails. -/
def StaysOnFailure (m : Read α) : Prop :=
  ∀ c e, (m c).1 = .error e → (m c).2 = c

theorem staysOnFailure_take (width : Nat) : StaysOnFailure (take width) := by
  intro c e h
  simp only [take, List.splitAt_eq] at h ⊢
  split at h
  · next hwidth => rw [if_pos hwidth]
  · cases h

theorem staysOnFailure_decoded (decode : Bytes → Except CodecError (α × Nat)) :
    StaysOnFailure (decoded decode) := by
  intro c e h
  unfold decoded at h ⊢
  cases hdecode : decode c.rest with
  | error e => rfl
  | ok found =>
    rw [hdecode] at h
    cases h

/-- A second part that never fails after the first moves nothing on failure either. -/
theorem StaysOnFailure.bind {m : Read α} {f : α → Read β} (hm : m.StaysOnFailure)
    (hf : ∀ c a, (m c).1 = .ok a → ∀ e, (f a (m c).2).1 ≠ .error e) :
    (m >>= f).StaysOnFailure := by
  intro c e h
  have hmove := hm c
  have hnever := hf c
  rw [bind_apply] at h ⊢
  cases hc : m c with
  | mk r c' =>
    rw [hc] at h hmove hnever
    cases r with
    | error e => exact hmove e rfl
    | ok a => exact absurd h (hnever a rfl e)

theorem StaysOnFailure.map {m : Read α} (hm : m.StaysOnFailure) (g : α → β) :
    (m >>= fun a => pure (g a)).StaysOnFailure :=
  hm.bind fun _ _ _ _ => nofun

theorem staysOnFailure_number (width : Nat) : StaysOnFailure (number width) :=
  (staysOnFailure_take width).map Bytes.toNat

/-- As many octets as are asked for make a value of that width. -/
theorem staysOnFailure_fixed (n : Nat) : StaysOnFailure (fixed n) := by
  refine (staysOnFailure_take n).bind fun c bs hbs e hfail => ?_
  have hread :=
    (reads_take (n := c.rest.length + 1) n c (Nat.lt_succ_self _) bs (take n c).2).mp
    (Prod.ext hbs rfl)
  obtain ⟨u, ⟨rfl, hlength⟩, -⟩ := hread
  have hfixed : FixedBytes.ofBytes n bs = .ok ⟨bs, hlength⟩ :=
    FixedBytes.ofBytes_eq_ok.mpr rfl
  rw [lift_apply, hfixed] at hfail
  cases hfail

theorem staysOnFailure_fieldId? : StaysOnFailure fieldId? := by
  intro c e h
  unfold fieldId? at h ⊢
  cases hrest : c.rest with
  | nil => rfl
  | cons b bs =>
    rw [hrest] at h
    exact (staysOnFailure_decoded FieldId.decode).map some c e h

end Read

/-! ## Calls -/

/-- The reads that a cursor offers. -/
inductive Call where
  | fieldId?
  | fieldId
  | uint8
  | uint16
  | uint32
  | uint64
  | hash128
  | hash160
  | hash256
  | length
  | payload
  | accountId
  | amount
  | pathSet
  | vector256
  | value (id : FieldId)
  | object
  | array
  | fields
  deriving DecidableEq

namespace Call

/-- What a call yields if it succeeds. -/
def Result : Call → Type
  | .fieldId? => Option FieldId
  | .fieldId => FieldId
  | .uint8 => UInt8
  | .uint16 => UInt16
  | .uint32 => UInt32
  | .uint64 => UInt64
  | .hash128 => Hash128
  | .hash160 => Hash160
  | .hash256 => Hash256
  | .length => Nat
  | .payload => Bytes
  | .accountId => AccountId
  | .amount => Amount
  | .pathSet => List Path
  | .vector256 => List Hash256
  | .value _ => Value
  | .object => Object
  | .array => Elements
  | .fields => Object

/-- The read that a call makes. -/
def read : (call : Call) → Read call.Result
  | .fieldId? => Read.fieldId?
  | .fieldId => Read.fieldId
  | .uint8 => Read.uint8
  | .uint16 => Read.uint16
  | .uint32 => Read.uint32
  | .uint64 => Read.uint64
  | .hash128 => Read.fixed 16
  | .hash160 => Read.fixed 20
  | .hash256 => Read.fixed 32
  | .length => Read.length
  | .payload => Read.payload
  | .accountId => Read.accountId
  | .amount => Read.amount
  | .pathSet => Read.anyPathSet
  | .vector256 => Read.vector256
  | .value id => Read.value id
  | .object => Read.object
  | .array => Read.array
  | .fields => Read.fields

/-- Where a call ends, be it in success or in failure. -/
def next (call : Call) (c : Cursor) : Cursor :=
  (call.read c).2

/-- Where calls lead from the start of a byte string. -/
def reached (bs : Bytes) (calls : List Call) : Cursor :=
  calls.foldl (fun c call => call.next c) (Cursor.start bs)

/-- The calls for something that is read as a whole or not at all: a header, a length, or
a value of fixed width. -/
def IsIndivisible : Call → Prop
  | .fieldId? | .length => True
  | .uint8 | .uint16 | .uint32 | .uint64 => True
  | .hash128 | .hash160 | .hash256 => True
  | _ => False

theorem advances (call : Call) : call.read.Advances := by
  cases call with
  | fieldId? => exact Read.advances_fieldId?
  | fieldId => exact Read.advances_fieldId
  | uint8 => exact Read.advances_uint8
  | uint16 => exact Read.advances_uint16
  | uint32 => exact Read.advances_uint32
  | uint64 => exact Read.advances_uint64
  | hash128 => exact Read.advances_fixed 16
  | hash160 => exact Read.advances_fixed 20
  | hash256 => exact Read.advances_fixed 32
  | length => exact Read.advances_length
  | payload => exact Read.advances_payload
  | accountId => exact Read.advances_accountId
  | amount => exact Read.advances_amount
  | pathSet => exact Read.advances_atCursor fun rounds _ => Read.advances_pathSet rounds
  | vector256 => exact Read.advances_vector256
  | value id =>
    exact Read.advances_atCursor fun rounds levels =>
      Read.advances_valueAt rounds levels id
  | object =>
    exact Read.advances_atCursor fun rounds levels => (Read.advances_at rounds levels).1
  | array =>
    exact Read.advances_atCursor fun rounds levels => (Read.advances_at rounds levels).2
  | fields =>
    exact Read.advances_atCursor fun rounds levels =>
      Read.advances_run (Read.advances_valueAt rounds levels) none rounds none

theorem staysOnFailure {call : Call} (h : call.IsIndivisible) :
    call.read.StaysOnFailure := by
  cases call with
  | fieldId? => exact Read.staysOnFailure_fieldId?
  | uint8 => exact (Read.staysOnFailure_number 1).map UInt8.ofNat
  | uint16 => exact (Read.staysOnFailure_number 2).map UInt16.ofNat
  | uint32 => exact (Read.staysOnFailure_number 4).map UInt32.ofNat
  | uint64 => exact (Read.staysOnFailure_number 8).map UInt64.ofNat
  | hash128 => exact Read.staysOnFailure_fixed 16
  | hash160 => exact Read.staysOnFailure_fixed 20
  | hash256 => exact Read.staysOnFailure_fixed 32
  | length => exact Read.staysOnFailure_decoded Length.decode
  | _ => exact h.elim

end Call

/-! ## Runs -/

/-- The cursor has passed a front of the octets and is inside no object. -/
structure Cursor.Within (bs : Bytes) (c : Cursor) : Prop where
  rest_eq : c.rest = bs.drop c.position
  position_le : c.position ≤ bs.length
  depth_eq : c.depth = 0

namespace Call

variable {bs : Bytes} {c : Cursor}

theorem within_start (bs : Bytes) : (Cursor.start bs).Within bs :=
  ⟨rfl, Nat.zero_le _, rfl⟩

/-- One call keeps the invariant and does not go back. -/
theorem within_next (h : c.Within bs) (call : Call) :
    (call.next c).Within bs ∧ c.position ≤ (call.next c).position := by
  obtain ⟨r, n, hn, hread⟩ := call.advances c.rest c.depth
  have hnext : call.next c = ⟨c.rest.drop n, c.position + n, c.depth⟩ :=
    congrArg Prod.snd (hread c.position)
  have hleft := congrArg List.length h.rest_eq
  have hposition := h.position_le
  rw [List.length_drop] at hleft
  rw [hnext]
  refine ⟨⟨?_, ?_, h.depth_eq⟩, Nat.le_add_right c.position n⟩
  · show c.rest.drop n = bs.drop (c.position + n)
    rw [h.rest_eq, List.drop_drop]
  · show c.position + n ≤ bs.length
    omega

theorem reached_concat (bs : Bytes) (calls : List Call) (call : Call) :
    reached bs (calls ++ [call]) = call.next (reached bs calls) :=
  List.foldl_append ..

/-- All calls keep the invariant `Within`. -/
theorem within_reached (bs : Bytes) (calls : List Call) :
    (reached bs calls).Within bs := by
  induction calls using List.reverseRecOn with
  | nil => exact within_start bs
  | append_singleton calls call ih =>
    rw [reached_concat]
    exact (within_next ih call).1

/-- More calls do not go back from where `reached` led. -/
theorem position_reached_le (bs : Bytes) (calls more : List Call) :
    (reached bs calls).position ≤ (reached bs (calls ++ more)).position := by
  induction more using List.reverseRecOn with
  | nil => simp
  | append_singleton more call ih =>
    rw [← List.append_assoc, reached_concat]
    exact Nat.le_trans ih (within_next (within_reached bs (calls ++ more)) call).2

/-- A call inside no object has the outcome that it has at the start of the octets that
are left, at `Cursor.start`. -/
theorem outcome_eq (h : c.Within bs) (call : Call) :
    (call.read c).1 = (call.read (Cursor.start c.rest)).1 := by
  obtain ⟨r, n, -, hread⟩ := call.advances c.rest c.depth
  have hhere : call.read c = _ := hread c.position
  have hstart : call.read (Cursor.start c.rest) = _ := h.depth_eq ▸ hread 0
  rw [hhere, hstart]

/-- Wherever `reached` leads, be the calls successes or failures: the cursor has passed a
front of the octets and never goes back, it is inside no object, so that the next call
finds what it would find at the start of the octets that are left, with as many levels to
go. A header, a length or a value of fixed width that is not read leaves the cursor in its
place. -/
theorem reached_sound (bs : Bytes) (calls : List Call) :
    ((reached bs calls).position ≤ bs.length ∧
      (reached bs calls).rest = bs.drop (reached bs calls).position ∧
      (reached bs calls).depth = 0) ∧
    (∀ more, (reached bs calls).position ≤ (reached bs (calls ++ more)).position) ∧
    (∀ call : Call,
      (call.read (reached bs calls)).1 =
      (call.read (Cursor.start (reached bs calls).rest)).1) ∧
    ∀ call : Call, call.IsIndivisible → ∀ e, (call.read (reached bs calls)).1 = .error e →
      reached bs (calls ++ [call]) = reached bs calls := by
  have hwithin := within_reached bs calls
  refine ⟨⟨hwithin.position_le, hwithin.rest_eq, hwithin.depth_eq⟩,
    position_reached_le bs calls, outcome_eq hwithin, ?_⟩
  intro call hcall e he
  rw [reached_concat]
  exact staysOnFailure hcall _ e he

-- A field ends in the middle, two objects deep, and no number of four octets is left
-- behind it.
example : reached [0xEA, 0xEA, 0x12, 0x00] [.fields, .uint32] = ⟨[0x00], 3, 0⟩ := by
  decide

end Call

end XrpLedger
