import XrpLedger.Proofs.ScalarSpelling
import XrpLedger.Proofs.TreeShape

/-!
# Segments of a serialized form

A serialized form can be cut into segments without a look at the tree that it is the form
of: every header starts one, and the kind of the field tells where it ends. Openings and
end markers have segments of their own, so that their numbers can be compared.

- `Segment`, `Segment.split`: the segments of a byte string.
- `Segment.nesting`: how many more objects and arrays the segments open than end.
- `Segment.IsOversized`, `Segment.LacksSign`, `Segment.signed`: the segments that the
  writer refuses, those that it changes, and what it makes of them.
- `Segment.Splits`: the segments of a string that stands in front of any other.
-/

namespace XrpLedger

/-! ## Widths -/

/-- The number of octets of the members of a path step with the given bits. -/
def PathStep.width (bits : UInt8) : Nat :=
  (if bits &&& accountBit = 0 then 0 else 20) +
    ((if bits &&& currencyBit = 0 then 0 else 20) +
      (if bits &&& issuerBit = 0 then 0 else 20))

/-- The number of octets up to the terminator of a path set, the first of which are the
rest of a step. -/
def PathSet.width? : (members : Nat) → Bytes → Option Nat
  | _, [] => none
  | members + 1, _ :: bs => (width? members bs).map (· + 1)
  | 0, b :: bs =>
    if b = terminator then some 1
    else if b = separator then (width? 0 bs).map (· + 1)
    else (width? (PathStep.width b) bs).map (· + 1)

/-- A field header, the length behind it if there is one, and the octets up to the next
header. -/
structure Segment where
  id : FieldId
  header : Bytes
  length : Bytes
  payload : Bytes
  deriving DecidableEq

namespace Segment

/-- The numbers of octets of the length and of the payload behind the header of
a field. -/
def widths? : FieldKind → Bytes → Option (Nat × Nat)
  | .uint8, _ => some (0, 1)
  | .uint16, _ => some (0, 2)
  | .uint32, _ => some (0, 4)
  | .uint64, _ => some (0, 8)
  | .hash128, _ => some (0, 16)
  | .hash160, _ => some (0, 20)
  | .hash256, _ => some (0, 32)
  | .amount, [] => none
  | .amount, b :: _ => some (0, if b < 0x80 then 8 else 48)
  | .pathSet, bs => (PathSet.width? 0 bs).map fun n => (0, n)
  | .object, _ => some (0, 0)
  | .array, _ => some (0, 0)
  | .blob, bs => lengthWidths? bs
  | .accountId, bs => lengthWidths? bs
  | .vector256, bs => lengthWidths? bs
where
  lengthWidths? (bs : Bytes) : Option (Nat × Nat) :=
    match Length.decode bs with
    | .ok (n, k) => some (k, n)
    | .error _ => none

/-- The segment at the start of a byte string. -/
def front? (bs : Bytes) : Option Segment :=
  match FieldId.decode bs with
  | .error _ => none
  | .ok (id, k) =>
    match id.kind? with
    | none => none
    | some kind =>
      match widths? kind (bs.drop k) with
      | none => none
      | some (l, n) =>
        if l + n ≤ (bs.drop k).length then
          some ⟨id, bs.take k, (bs.drop k).take l, ((bs.drop k).drop l).take n⟩
        else none

/-- The octets of a segment. -/
def octets (s : Segment) : Bytes :=
  s.header ++ (s.length ++ s.payload)

/-- The segments behind the first octets of a byte string, which belong to a segment
already found. -/
def splitBehind : (skipped : Nat) → Bytes → Option (List Segment)
  | 0, [] => some []
  | _ + 1, [] => none
  | skipped + 1, _ :: bs => splitBehind skipped bs
  | 0, b :: bs =>
    match front? (b :: bs) with
    | none => none
    | some s => (splitBehind (s.octets.length - 1) bs).map (s :: ·)

/-- The segments of a byte string. -/
def split (bs : Bytes) : Option (List Segment) :=
  splitBehind 0 bs

/-! ## Nesting -/

/-- What a segment adds to the number of objects and arrays that are open. -/
def weight (s : Segment) : Int :=
  if s.id.IsEndMarker then -1
  else if s.id.kindCode = FieldKind.object.code ∨
    s.id.kindCode = FieldKind.array.code then 1
  else 0

/-- The number of objects and arrays that are opened less the number of those that are
ended: the sum of each `weight`. -/
def nesting (segments : List Segment) : Int :=
  (segments.map weight).sum

theorem nesting_singleton (s : Segment) : nesting [s] = s.weight := by
  simp [nesting]

/-- The `nesting` of a sequence is the sum of those of its parts. -/
theorem nesting_append (segments segments' : List Segment) :
    nesting (segments ++ segments') = nesting segments + nesting segments' := by
  simp [nesting]

/-! ## What the writer makes of a segment -/

/-- The segment is a blob or a list of hashes with a payload above the `Length.limit`,
which is not written. -/
def IsOversized (s : Segment) : Prop :=
  (s.id.kindCode = FieldKind.blob.code ∨ s.id.kindCode = FieldKind.vector256.code) ∧
    Length.limit < s.payload.length

instance (s : Segment) : Decidable s.IsOversized :=
  inferInstanceAs (Decidable (_ ∧ _))

/-- The segment is an amount of eight zeros: no drops, without the sign bit. -/
def LacksSign (s : Segment) : Prop :=
  s.id.kindCode = FieldKind.amount.code ∧ s.payload = List.replicate 8 0

instance (s : Segment) : Decidable s.LacksSign :=
  inferInstanceAs (Decidable (_ ∧ _))

/-- The octets of a segment, with the sign bit set if it `LacksSign`. -/
def signed (s : Segment) : Bytes :=
  if s.LacksSign then s.header ++ (s.length ++ 0x40 :: s.payload.tail) else s.octets

/-- A segment is as long after `signed` as before. -/
theorem length_signed (s : Segment) : s.signed.length = s.octets.length := by
  unfold signed
  split
  · next h =>
    -- the sign bit takes the place of one of eight octets
    have hpayload := congrArg List.length h.2
    simp only [List.length_replicate] at hpayload
    simp only [octets, List.length_append, List.length_cons, List.length_tail]
    omega
  · rfl

/-- Setting the sign bit with `signed` changes a segment that `LacksSign`. -/
theorem signed_eq_octets_iff (s : Segment) : s.signed = s.octets ↔ ¬ s.LacksSign := by
  unfold signed
  split
  · next h =>
    simp only [h, not_true_eq_false, iff_false, octets]
    intro heq
    have htail := List.append_cancel_left (List.append_cancel_left heq)
    rw [h.2] at htail
    revert htail
    decide
  · next h => simp [h]

theorem length_flatMap_signed (segments : List Segment) :
    (segments.flatMap signed).length = (segments.flatMap octets).length := by
  simp only [List.length_flatMap, length_signed]

/-- Setting the sign bits leaves a string alone exactly if no segment `LacksSign`. -/
theorem flatMap_signed_eq_iff (segments : List Segment) :
    segments.flatMap signed = segments.flatMap octets ↔
    ∀ s ∈ segments, ¬ s.LacksSign := by
  induction segments with
  | nil => simp
  | cons s rest ih =>
    rw [List.flatMap_cons, List.flatMap_cons, List.forall_mem_cons, ← ih,
      ← signed_eq_octets_iff]
    constructor
    · exact fun h => List.append_inj h s.length_signed
    · rintro ⟨hs, hrest⟩
      rw [hs, hrest]

/-! ## Segments in front -/

variable {u w : Bytes} {segments segments' : List Segment}

/-- Behind the octets that are skipped, `splitBehind` goes on as `split`. -/
theorem splitBehind_append (x w : Bytes) : splitBehind x.length (x ++ w) = split w := by
  induction x with
  | nil => rfl
  | cons b x ih => exact ih

/-- In front of any other string, `split` cuts the string into the segments. -/
def Splits (u : Bytes) (segments : List Segment) : Prop :=
  segments.flatMap octets = u ∧ ∀ w, split (u ++ w) = (split w).map (segments ++ ·)

theorem Splits.nil : Splits [] [] := by
  refine ⟨rfl, fun w => ?_⟩
  simp

/-- Strings with `Splits` can stand one behind the other. -/
theorem Splits.append (h : Splits u segments) (h' : Splits w segments') :
    Splits (u ++ w) (segments ++ segments') := by
  refine ⟨by rw [List.flatMap_append, h.1, h'.1], fun v => ?_⟩
  rw [List.append_assoc, h.2, h'.2, Option.map_map]
  congr 1
  funext more
  exact (List.append_assoc ..).symm

/-- All segments of the string itself are found by `split`. -/
theorem Splits.split_eq (h : Splits u segments) : split u = some segments := by
  have hu := h.2 []
  rwa [List.append_nil, show split [] = some [] from rfl, Option.map_some,
    List.append_nil] at hu

/-- A segment is found where its header, its length and its payload stand, if `widths?`
tells how long these are. -/
theorem Splits.one {id : FieldId} {kind : FieldKind} {header length payload : Bytes}
    (hheader : id.encode = .ok header) (hkind : id.kind? = some kind)
    (hwidths : ∀ w, widths? kind (length ++ payload ++ w) =
      some (length.length, payload.length)) :
    Splits (header ++ (length ++ payload)) [⟨id, header, length, payload⟩] := by
  refine ⟨by simp [octets], fun w => ?_⟩
  obtain ⟨b, header', rfl⟩ := List.exists_cons_of_ne_nil (FieldId.encode_ne_nil hheader)
  have hdecode := FieldId.decode_append hheader (length ++ payload ++ w)
  -- the header is read whatever stands behind it, and so are the widths
  have hfront : front? (b :: (header' ++ (length ++ payload ++ w))) =
      some ⟨id, b :: header', length, payload⟩ := by
    rw [List.cons_append] at hdecode
    unfold front?
    rw [hdecode]
    simp only [hkind, List.drop_succ_cons, List.length_cons, List.drop_left, hwidths,
      List.take_succ_cons, List.take_left]
    rw [if_pos (by simp), List.append_assoc, List.take_left,
      List.drop_left, List.take_left]
  rw [split, List.append_assoc, List.cons_append, splitBehind, hfront]
  -- the octets behind the first one of the header are skipped
  have hbehind := splitBehind_append (header' ++ (length ++ payload)) w
  rw [List.append_assoc] at hbehind
  show (splitBehind (header' ++ (length ++ payload)).length _).map _ = _
  rw [hbehind]
  rfl

end Segment

end XrpLedger
