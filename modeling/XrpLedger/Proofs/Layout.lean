import XrpLedger.Proofs.Segments
import XrpLedger.Proofs.TreeWriting

/-!
# Segments of spellings

A spelling is cut into segments that tell two things about the tree: whether a field or an
element goes by an end marker, since then more is ended than opened, and what the tree is
written as.

- `Segment.Rewrites`: the outcome of writing what the segments were read as.
- `Layout`: the segments of a spelling and what they tell.
- `Object.exists_layout`: every spelling of a tree in order has a layout.
-/

namespace XrpLedger

/-! ## Outcomes -/

namespace Segment

/-- The outcome of a write is the segments with all sign bits set, or an overflow if one
is oversized. -/
def Rewrites (segments : List Segment) : Except CodecError Bytes → Prop
  | .ok bs => (∀ s ∈ segments, ¬ s.IsOversized) ∧ bs = segments.flatMap signed
  | .error e =>
    (∃ s ∈ segments, s.IsOversized) ∧ ∃ n, e = .overflow (.length n Length.limit)

variable {segments segments' : List Segment} {r r' : Except CodecError Bytes}

/-- The outcome of two writes is that of their segments, one behind the other. -/
theorem Rewrites.append (h : Rewrites segments r) (h' : Rewrites segments' r') :
    Rewrites (segments ++ segments') (joined r r') := by
  cases r with
  | error e =>
    obtain ⟨⟨s, hs, hbig⟩, he⟩ := h
    exact ⟨⟨s, List.mem_append_left _ hs, hbig⟩, he⟩
  | ok bs =>
    obtain ⟨hsmall, rfl⟩ := h
    cases r' with
    | error e =>
      obtain ⟨⟨s, hs, hbig⟩, he⟩ := h'
      exact ⟨⟨s, List.mem_append_right _ hs, hbig⟩, he⟩
    | ok bs' =>
      obtain ⟨hsmall', rfl⟩ := h'
      refine ⟨fun s hs => ?_, List.flatMap_append.symm⟩
      rcases List.mem_append.mp hs with hs | hs
      · exact hsmall s hs
      · exact hsmall' s hs

/-- A segment that is neither oversized nor `LacksSign` is written as it is. -/
theorem Rewrites.same {s : Segment} (hsmall : ¬ s.IsOversized) (hsign : ¬ s.LacksSign) :
    Rewrites [s] (.ok s.octets) := by
  refine ⟨by simpa using hsmall, ?_⟩
  rw [List.flatMap_singleton, (s.signed_eq_octets_iff).mpr hsign]

end Segment

/-! ## Layouts -/

open Segment (Splits Rewrites nesting nesting_append nesting_singleton weight widths?)

/-- The segments of a string, the number of levels they open at most, what it means that
they open as many, and what they are written as. -/
structure Layout (u : Bytes) (segments : List Segment) (levels : Int) (free : Prop)
    (r : Except CodecError Bytes) : Prop where
  splits : Splits u segments
  nesting_le : nesting segments ≤ levels
  nesting_eq_iff : nesting segments = levels ↔ free
  rewrites : Rewrites segments r

namespace Layout

variable {u w : Bytes} {segments segments' : List Segment} {levels levels' : Int}
  {free free' : Prop}
  {r r' : Except CodecError Bytes}

theorem nil : Layout [] [] 0 True (.ok []) := by
  refine ⟨Splits.nil, Int.le_refl 0, iff_true_intro rfl, ?_, rfl⟩
  simp

/-- Layouts can stand one behind the other: `Layout` adds up. -/
theorem append (h : Layout u segments levels free r)
    (h' : Layout w segments' levels' free' r') :
    Layout (u ++ w) (segments ++ segments') (levels + levels') (free ∧ free')
      (joined r r') := by
  have hle := h.nesting_le
  have hle' := h'.nesting_le
  refine ⟨h.splits.append h'.splits, ?_, ?_, h.rewrites.append h'.rewrites⟩
  · rw [nesting_append]
    omega
  · rw [nesting_append, ← h.nesting_eq_iff, ← h'.nesting_eq_iff]
    omega

theorem congr (h : Layout u segments levels free r) (hu : u = w)
    (hlevels : levels = levels')
    (hfree : free ↔ free') (hr : r = r') : Layout w segments levels' free' r' := by
  subst hu hlevels hr
  exact ⟨h.splits, h.nesting_le, h.nesting_eq_iff.trans hfree, h.rewrites⟩

end Layout

/-! ## Segments without a payload -/

section

variable {id : FieldId} {kind : FieldKind} {header : Bytes}

namespace Segment

theorem Splits.bare (hheader : id.encode = .ok header) (hkind : id.kind? = some kind)
    (hbare : kind = .object ∨ kind = .array) : Splits header [⟨id, header, [], []⟩] := by
  have h : Splits (header ++ ([] ++ [])) [⟨id, header, [], []⟩] :=
    Splits.one hheader hkind fun w => by rcases hbare with rfl | rfl <;> rfl
  rwa [List.append_nil, List.append_nil] at h

theorem Rewrites.bare (id : FieldId) (header : Bytes) :
    Rewrites [⟨id, header, [], []⟩] (.ok header) := by
  have h : Rewrites [⟨id, header, [], []⟩] (.ok (header ++ ([] ++ []))) :=
    Rewrites.same (by simp [IsOversized]) (by simp [LacksSign])
  rwa [List.append_nil, List.append_nil] at h

end Segment

/-- The header of an object or an array opens a level, unless it is the header of an end
marker: a `Layout` of one level. -/
theorem Layout.opening (hheader : id.encode = .ok header) (hkind : id.kind? = some kind)
    (hbare : kind = .object ∨ kind = .array) :
    Layout header [⟨id, header, [], []⟩] 1 (¬ id.IsEndMarker) (.ok header) := by
  have hcode : id.kindCode = FieldKind.object.code ∨
      id.kindCode = FieldKind.array.code := by
    rw [← FieldKind.code_of_ofCode? hkind]
    rcases hbare with rfl | rfl <;> simp
  have hweight : nesting [⟨id, header, [], []⟩] = if id.IsEndMarker then -1 else 1 := by
    rw [nesting_singleton, weight, if_pos hcode]
  refine ⟨.bare hheader hkind hbare, ?_, ?_, .bare id header⟩
  · rw [hweight]
    split <;> decide
  · rw [hweight]
    split <;> simp [*]

/-- An end marker ends a level: a `Layout` of one level less. -/
theorem Layout.ending (hmarker : id.IsEndMarker) (hheader : id.encode = .ok header) :
    Layout header [⟨id, header, [], []⟩] (-1) True (.ok header) := by
  have hkind : ∃ kind, id.kind? = some kind ∧ (kind = .object ∨ kind = .array) := by
    rcases hmarker with rfl | rfl
    · exact ⟨.object, by decide, .inl rfl⟩
    · exact ⟨.array, by decide, .inr rfl⟩
  obtain ⟨kind, hkind, hbare⟩ := hkind
  have hweight : nesting [⟨id, header, [], []⟩] = -1 := by
    rw [nesting_singleton, weight, if_pos hmarker]
  refine ⟨.bare hheader hkind hbare, ?_, ?_, .bare id header⟩
  · rw [hweight]
  · simp [hweight]

end

/-! ## Segments of scalars -/

namespace PathStep

/-- The bits of a step tell with `width` the number of octets of its members. -/
theorem length_members (s : PathStep) : s.members.length = width s.bits := by
  obtain ⟨-, haccount, hcurrency, hissuer⟩ := bits_eq_iff.mp (Eq.refl s.bits)
  have hmember : ∀ {α : Type} (o : Option α) (form : α → Bytes) (bit : UInt8),
      (∀ a, (form a).length = 20) → (o.isSome ↔ s.bits &&& bit ≠ 0) →
        ((o.map form).getD []).length = if s.bits &&& bit = 0 then 0 else 20 := by
    intro α o form bit hform hbit
    cases o with
    | none =>
      rw [if_pos (by simpa using hbit)]
      rfl
    | some a =>
      rw [if_neg (by simpa using hbit)]
      exact hform a
  rw [members, List.length_append, List.length_append, width,
    hmember s.account _ accountBit AccountId.length_toBytes haccount,
    hmember s.currency _ currencyBit CurrencyCode.length_toBytes hcurrency,
    hmember s.issuer _ issuerBit AccountId.length_toBytes hissuer]

end PathStep

namespace PathSet

theorem width?_append (x w : Bytes) :
    width? x.length (x ++ w) = (width? 0 w).map (· + x.length) := by
  induction x with
  | nil => simp
  | cons b x ih =>
    rw [List.length_cons, List.cons_append, width?, ih, Option.map_map]
    rfl

/-- The width of a path set is found by `width?` where it stands. -/
theorem width?_octets :
    ∀ {p : Path} {rest : List Path}, Stepped (p :: rest) → ∀ w,
      width? 0 (octets p rest ++ w) = some (octets p rest).length
  | [], [], _, _ => rfl
  | [], q :: rest, hstepped, w => by
    have hrest : Stepped (q :: rest) := stepped_cons_nil.mp hstepped
    show width? 0 (separator :: (octets q rest ++ w)) = some (octets q rest).length.succ
    rw [width?, if_neg (by decide), if_pos rfl, width?_octets hrest w]
    rfl
  | s :: p, rest, hstepped, w => by
    obtain ⟨hs, hp⟩ := stepped_cons_cons.mp hstepped
    rw [octets_cons, PathStep.octets, List.cons_append, List.cons_append,
      width?, if_neg hs, if_neg s.bits_ne_separator, ← s.length_members,
      List.append_assoc, width?_append, width?_octets hp w]
    simp only [Option.map_some, List.length_cons, List.length_append, Option.some.injEq]
    omega
  termination_by p rest => p.length + (rest.map List.length).sum + rest.length
  decreasing_by
    · simp
    · simp

end PathSet

namespace Segment

variable {id : FieldId} {kind : FieldKind} {header : Bytes}

/-- Only three kinds are ever refused or changed. -/
theorem Rewrites.plain (hid : id.kindCode = kind.code)
    (hkind : kind ≠ .blob ∧ kind ≠ .vector256 ∧ kind ≠ .amount) (length payload : Bytes) :
    Rewrites [⟨id, header, length, payload⟩]
      (joined (.ok header) (.ok (length ++ payload))) := by
  obtain ⟨hblob, hvector, hamount⟩ := hkind
  refine Rewrites.same ?_ ?_
  · rintro ⟨hcode | hcode, -⟩
    · exact hblob (FieldKind.code_inj (hid.symm.trans hcode))
    · exact hvector (FieldKind.code_inj (hid.symm.trans hcode))
  · rintro ⟨hcode, -⟩
    exact hamount (FieldKind.code_inj (hid.symm.trans hcode))

/-- A blob and a list of hashes are refused if they are longer than `Length.limit`. -/
theorem Rewrites.payload (hid : id.kindCode = kind.code)
    (hkind : kind = .blob ∨ kind = .vector256) (bs : Bytes) :
    Rewrites [⟨id, header, Length.octets bs.length, bs⟩]
      (joined (.ok header) (XrpLedger.payload bs).toExcept) := by
  have hcode : id.kindCode = FieldKind.blob.code ∨
      id.kindCode = FieldKind.vector256.code := by
    rw [hid]
    rcases hkind with rfl | rfl <;> simp
  have hamount : id.kindCode ≠ FieldKind.amount.code := by
    rw [hid]
    rcases hkind with rfl | rfl <;> decide
  rw [toExcept_payload, Length.encode_eq]
  by_cases hlimit : bs.length ≤ Length.limit
  · rw [if_pos hlimit]
    refine Rewrites.same ?_ fun hsign => hamount hsign.1
    exact fun hbig => absurd hlimit (Nat.not_le.mpr hbig.2)
  · rw [if_neg hlimit]
    exact ⟨⟨_, List.mem_singleton_self _, hcode, Nat.not_le.mp hlimit⟩, _, rfl⟩

/-- An amount is written by `toBytes` with its sign bit, as `signed` sets it. -/
theorem Rewrites.amount {a : Amount} {u : Bytes}
    (hid : id.kindCode = FieldKind.amount.code) (h : a.Spells u) :
    Rewrites [⟨id, header, [], u⟩] (joined (.ok header) (.ok a.toBytes)) := by
  have hsmall : ¬ IsOversized ⟨id, header, [], u⟩ := by
    rintro ⟨hcode | hcode, -⟩
    · exact absurd (hid.symm.trans hcode) (by decide)
    · exact absurd (hid.symm.trans hcode) (by decide)
  have hwritten : u = a.toBytes → u ≠ List.replicate 8 0 →
      Rewrites [⟨id, header, [], u⟩] (joined (.ok header) (.ok a.toBytes)) := by
    rintro rfl hzero
    exact Rewrites.same hsmall fun hsign => hzero hsign.2
  cases a with
  | issued a =>
    obtain ⟨-, rfl⟩ := h
    -- it is 48 octets long
    refine hwritten rfl fun hzero => ?_
    have hlength := congrArg List.length hzero
    simp [IssuedAmount.toBytes, CurrencyCode.length_toBytes,
      AccountId.length_toBytes] at hlength
  | native d =>
    rcases h with rfl | ⟨hd, rfl⟩
    · -- its number has the sign bit
      refine hwritten rfl fun hzero => ?_
      have hword := congrArg Bytes.toNat hzero
      have hlt : d.toWord.toNat < 256 ^ 8 := d.toWord.toNat_lt
      rw [Amount.toBytes, Bytes.toNat_ofNat, Nat.mod_eq_of_lt hlt, Drops.toNat_toWord,
        show Bytes.toNat (List.replicate 8 0) = 0 by decide] at hword
      unfold AmountWord.positiveBit at hword
      omega
    · -- the one amount with a second spelling
      obtain ⟨count, hcount⟩ := d
      subst hd
      have hword : Bytes.ofNat 8 (UInt64.ofNat AmountWord.positiveBit).toNat =
          0x40 :: List.replicate 7 0 := by decide
      refine ⟨by simpa using hsmall, ?_⟩
      rw [List.flatMap_singleton, signed, if_pos ⟨hid, rfl⟩]
      show header ++ Bytes.ofNat 8 (UInt64.ofNat AmountWord.positiveBit).toNat = _
      rw [hword]
      rfl

/-- The length in front tells the width of a payload. -/
theorem lengthWidths?_append {n : Nat} (hn : n ≤ Length.readLimit) (w : Bytes) :
    widths?.lengthWidths? (Length.octets n ++ w) =
    some ((Length.octets n).length, n) := by
  rw [widths?.lengthWidths?, Length.decode_append hn]

/-- The first octet tells the width of an amount. -/
theorem widths?_amount {a : Amount} {u : Bytes} (h : a.Spells u) (w : Bytes) :
    widths? .amount (u ++ w) = some (0, u.length) := by
  obtain ⟨b, u', rfl, hb⟩ := h.head
  rw [List.cons_append, widths?]
  simp only [hb, Option.some.injEq, Prod.mk.injEq, true_and]
  cases a with
  | native d =>
    rw [if_pos (show (Amount.native d).isXrp = true from rfl)]
    rcases h with h | ⟨-, h⟩
    · rw [h, Amount.toBytes, Bytes.length_ofNat]
    · rw [h, List.length_replicate]
  | issued a =>
    rw [if_neg (by simp [Amount.isXrp]), h.2]
    simp [IssuedAmount.toBytes, CurrencyCode.length_toBytes, AccountId.length_toBytes]

end Segment

/-- The string is a length and a payload, and their segment tells what is made of the
scalar. -/
def Scalar.HasSegment (s : Scalar) (u : Bytes) : Prop :=
  ∃ l p, u = l ++ p ∧ (∀ w, widths? s.kind (l ++ p ++ w) = some (l.length, p.length)) ∧
    ∀ (id : FieldId) (header : Bytes), id.kindCode = s.kind.code →
      Rewrites [⟨id, header, l, p⟩] (joined (.ok header) s.output.toExcept)

/-- A scalar without a length in front, which is written as it was read. -/
theorem Scalar.HasSegment.plain {s : Scalar} {u : Bytes}
    (hkind : s.kind ≠ .blob ∧ s.kind ≠ .vector256 ∧ s.kind ≠ .amount)
    (houtput : s.output.toExcept = .ok u)
    (hwidths : ∀ w, widths? s.kind ([] ++ u ++ w) = some (0, u.length)) :
    s.HasSegment u := by
  refine ⟨[], u, rfl, hwidths, fun id header hid => ?_⟩
  rw [houtput]
  exact Rewrites.plain hid hkind [] u

/-- Every spelling of a scalar `HasSegment`. -/
theorem Scalar.exists_segment {s : Scalar} {u : Bytes} (h : s.Spells u) :
    s.HasSegment u := by
  cases s with
  | uint8 v =>
    cases h
    exact .plain (by simp [Scalar.kind]) rfl fun w => by simp [widths?, Scalar.kind]
  | uint16 v =>
    cases h
    exact .plain (by simp [Scalar.kind]) rfl fun w => by simp [widths?, Scalar.kind]
  | uint32 v =>
    cases h
    exact .plain (by simp [Scalar.kind]) rfl fun w => by simp [widths?, Scalar.kind]
  | uint64 v =>
    cases h
    exact .plain (by simp [Scalar.kind]) rfl fun w => by simp [widths?, Scalar.kind]
  | hash128 a =>
    cases h
    exact .plain (by simp [Scalar.kind]) rfl fun w => by
      simp [widths?, Scalar.kind, a.length_eq]
  | hash160 a =>
    cases h
    exact .plain (by simp [Scalar.kind]) rfl fun w => by
      simp [widths?, Scalar.kind, a.length_eq]
  | hash256 a =>
    cases h
    exact .plain (by simp [Scalar.kind]) rfl fun w => by
      simp [widths?, Scalar.kind, a.length_eq]
  | amount a =>
    exact ⟨[], u, rfl, Segment.widths?_amount h, fun id header hid =>
      Rewrites.amount hid h⟩
  | blob bs =>
    obtain ⟨hlimit, rfl⟩ := h
    refine ⟨_, bs, rfl, fun w => ?_, fun id header hid =>
      Rewrites.payload hid (.inl rfl) bs⟩
    rw [List.append_assoc]
    exact Segment.lengthWidths?_append hlimit _
  | accountId a =>
    cases h
    refine ⟨_, _, rfl, fun w => ?_, fun id header hid => ?_⟩
    · rw [List.append_assoc, a.length_toBytes]
      exact Segment.lengthWidths?_append (show 20 ≤ Length.readLimit by decide)
        (a.toBytes ++ w)
    · have hoctets : (payload a.toBytes).toExcept = .ok (Length.octets 20 ++ a.toBytes) :=
        payload_eq_ok.mpr ⟨by rw [a.length_toBytes]; decide, by rw [a.length_toBytes]⟩
      rw [Scalar.output, hoctets]
      exact Rewrites.plain hid (by simp [Scalar.kind]) _ _
  | pathSet paths =>
    obtain ⟨p, rest, rfl, hstepped, rfl⟩ := h
    refine .plain (by simp [Scalar.kind]) (PathSet.output_eq_ok.mpr ⟨hstepped, rfl⟩)
      fun w => ?_
    show (PathSet.width? 0 (PathSet.octets p rest ++ w)).map _ = _
    rw [PathSet.width?_octets hstepped]
    rfl
  | vector256 hashes =>
    obtain ⟨hlimit, rfl⟩ := h
    refine ⟨_, _, rfl, fun w => ?_, fun id header hid =>
      Rewrites.payload hid (.inr rfl) _⟩
    rw [List.append_assoc]
    exact Segment.lengthWidths?_append hlimit _

/-! ## Segments of trees -/

section

variable {id : FieldId} {header : Bytes}

theorem FieldId.kind?_of_fits {v : Value} (hfits : v.Fits id) :
    id.kind? = some v.kind := by
  rw [FieldId.kind?, ← hfits, FieldKind.ofCode?_code]

/-- A field with a scalar has a `Layout` of one segment, and its identity is no end
marker. -/
theorem Scalar.exists_layout {s : Scalar} {u : Bytes} (hheader : id.encode = .ok header)
    (hfits : (Value.scalar s).Fits id) (h : s.Spells u) :
    ∃ segments, Layout (header ++ u) segments 0 (¬ id.IsEndMarker ∧ True)
      (joined (.ok header) s.output.toExcept) := by
  obtain ⟨l, p, rfl, hwidths, hrewrites⟩ := s.exists_segment h
  have hcode : id.kindCode = s.kind.code := hfits.symm
  have hbare : id.kindCode ≠ FieldKind.object.code ∧
      id.kindCode ≠ FieldKind.array.code := by
    rw [hcode]
    cases s <;> simp [Scalar.kind, FieldKind.code]
  have hmarker : ¬ id.IsEndMarker := by
    rintro (rfl | rfl)
    · exact hbare.1 rfl
    · exact hbare.2 rfl
  have hweight : weight ⟨id, header, l, p⟩ = 0 := by
    rw [weight, if_neg hmarker, if_neg (not_or.mpr hbare)]
  refine ⟨_, Splits.one hheader (FieldId.kind?_of_fits hfits) hwidths, ?_, ?_,
    hrewrites id header hcode⟩
  · rw [nesting_singleton, hweight]
  · rw [nesting_singleton, hweight]
    simp [hmarker]

end

mutual

/-- A spelling of a field with any value has a `Layout`, whatever its identity is. -/
theorem Value.exists_layout {id : FieldId} {header : Bytes}
    (hheader : id.encode = .ok header) :
    ∀ {v : Value} {u : Bytes}, v.Fits id → v.Spells u → v.InOrder →
      ∃ segments, Layout (header ++ u) segments 0 (¬ id.IsEndMarker ∧ v.MarkerFree)
        (joined (.ok header) v.output.toExcept)
  | .scalar s, u, hfits, h, _ => s.exists_layout hheader hfits h
  | .object o, _, hfits, ⟨w, h, rfl⟩, horder => by
    obtain ⟨segments, hinner⟩ := Object.exists_layout h horder
    -- what the header opens the end marker ends, so the levels add up to none
    have hopening := Layout.opening hheader (FieldId.kind?_of_fits hfits) (.inl rfl)
    have hending := Layout.ending (.inl rfl) FieldId.encode_objectEnd
    refine ⟨_, (hopening.append (hinner.append hending)).congr rfl (by decide) ?_ ?_⟩
    · rw [and_true]
      rfl
    · rw [Value.toExcept_output_object]
  | .array es, _, hfits, ⟨w, h, rfl⟩, horder => by
    obtain ⟨segments, hinner⟩ := Elements.exists_layout h horder
    have hopening := Layout.opening hheader (FieldId.kind?_of_fits hfits) (.inr rfl)
    exact ⟨_, (hopening.append hinner).congr rfl (by decide) Iff.rfl rfl⟩

/-- A spelling of the fields of an object has a `Layout`, which tells what `encodeAfter`
makes of the object. -/
theorem Object.exists_layout :
    ∀ {previous : Option FieldId} {o : Object} {u : Bytes}, Object.Spells o u →
      Object.InOrder previous o →
        ∃ segments, Layout u segments 0 (Object.MarkerFree o)
          (Object.encodeAfter previous o)
  | _, [], _, rfl, _ => ⟨[], Layout.nil⟩
  | previous, (id, v) :: rest, _, ⟨header, x, y, hheader, hfits, hx, hy, rfl⟩,
      ⟨hfollows, horder, horder'⟩ => by
    obtain ⟨segments, hfield⟩ := Value.exists_layout hheader hfits hx horder
    obtain ⟨segments', hrest⟩ := Object.exists_layout hy horder'
    refine ⟨_, (hfield.append hrest).congr (List.append_assoc ..) rfl ?_ ?_⟩
    · rw [and_assoc]
      rfl
    · rw [Object.encodeAfter_cons, FieldId.headerFor_eq_ok.mpr ⟨hfits, hfollows, hheader⟩,
        joined_assoc]

/-- A spelling of the elements of an array has a `Layout`, which ends the level of the
array. -/
theorem Elements.exists_layout :
    ∀ {es : Elements} {u : Bytes}, Elements.Spells es u → Elements.InOrder es →
      ∃ segments, Layout (u ++ [arrayEndOctet]) segments (-1) (Elements.MarkerFree es)
        (Elements.output es).toExcept
  | [], _, rfl, _ =>
    ⟨_, Layout.ending (.inr rfl) FieldId.encode_arrayEnd⟩
  | (id, o) :: rest, _, ⟨header, x, y, hheader, hkind, hx, hy, rfl⟩,
      ⟨horder, horder'⟩ => by
    obtain ⟨segments, hinner⟩ := Object.exists_layout hx horder
    obtain ⟨segments', hrest⟩ := Elements.exists_layout hy horder'
    have hfits : (Value.object o).Fits id := hkind.symm
    have hopening := Layout.opening hheader (FieldId.kind?_of_fits hfits) (.inl rfl)
    have hending := Layout.ending (.inl rfl) FieldId.encode_objectEnd
    refine ⟨_, ((hopening.append (hinner.append hending)).append hrest).congr ?_
      (by decide) ?_ ?_⟩
    · simp only [List.append_assoc]
    · rw [and_true, and_assoc]
      rfl
    · rw [Elements.toExcept_output_cons hkind, Value.toExcept_output_object,
        hheader, joined_assoc]

end

end XrpLedger
