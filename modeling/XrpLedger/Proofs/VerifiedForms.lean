import XrpLedger.Proofs.Reencoding
import XrpLedger.Proofs.TypedSigning

/-!
# Forms of a verified transaction

The signature is checked over what the decoded transaction is written as, so it covers the
form that was received only as far as that is told by the tree. A native amount of nothing
may lack its sign bit, and then the form is not the one that the transaction is written
as.

- `Segment.AgreeSigned`: two strings have the same segments but for sign bits.
- `Object.agreeSigned`: all spellings of one tree do.
- `Signing.verified_forms`: which verified forms are written again, and what the forms of
  one transaction have in common.
-/

namespace XrpLedger

open Segment (Splits)

/-! ## Spellings of one tree -/

namespace Segment

/-- The segments of the two strings have the same octets when all sign bits are set by
`signed`. -/
def AgreeSigned (u u' : Bytes) : Prop :=
  ∃ segments segments', Splits u segments ∧ Splits u' segments' ∧
    segments.flatMap signed = segments'.flatMap signed

variable {u u' w w' : Bytes}

/-- A string that `Splits` agrees with itself. -/
theorem Splits.agreeSigned {segments : List Segment} (h : Splits u segments) :
    AgreeSigned u u :=
  ⟨segments, segments, h, h, rfl⟩

/-- Strings that agree in this way can stand in front of others that do. -/
theorem AgreeSigned.append (h : AgreeSigned u u') (h' : AgreeSigned w w') :
    AgreeSigned (u ++ w) (u' ++ w') := by
  obtain ⟨s, s', hu, hu', hs⟩ := h
  obtain ⟨t, t', hw, hw', ht⟩ := h'
  refine ⟨s ++ t, s' ++ t', hu.append hw, hu'.append hw', ?_⟩
  rw [List.flatMap_append, List.flatMap_append, hs, ht]

end Segment

open Segment (AgreeSigned)

/-- Only amounts have several octet strings that `Spells` relates them to. -/
theorem Scalar.spells_unique {s : Scalar} {u u' : Bytes} (hs : s.kind ≠ .amount)
    (h : s.Spells u) (h' : s.Spells u') : u = u' := by
  -- the spelling of all other scalars is told by an equation
  cases s with
  | amount a => exact absurd rfl hs
  | blob bs => exact h.2.trans h'.2.symm
  | vector256 hashes => exact h.2.trans h'.2.symm
  | pathSet paths =>
    obtain ⟨p, rest, rfl, -, rfl⟩ := h
    obtain ⟨q, rest', heq, -, rfl⟩ := h'
    cases heq
    rfl
  | _ => exact Eq.trans h (Eq.symm h')

section

variable {id : FieldId} {header : Bytes}

/-- The spellings of a scalar in a field are `AgreeSigned`. -/
theorem Scalar.agreeSigned {s : Scalar} {u u' : Bytes} (hheader : id.encode = .ok header)
    (hfits : (Value.scalar s).Fits id) (h : s.Spells u) (h' : s.Spells u') :
    AgreeSigned (header ++ u) (header ++ u') := by
  have hkind := FieldId.kind?_of_fits hfits
  by_cases hs : s.kind = .amount
  · cases s with
    | amount a =>
      -- with its sign bit set, each spelling is what the amount is written as
      have hsigned : ∀ {x}, a.Spells x →
          Splits (header ++ x) [⟨id, header, [], x⟩] ∧
            [⟨id, header, [], x⟩].flatMap Segment.signed = header ++ a.toBytes := by
        intro x hx
        have hrewrites : Segment.Rewrites [⟨id, header, [], x⟩]
            (.ok (header ++ a.toBytes)) :=
          Segment.Rewrites.amount hfits.symm hx
        exact ⟨Splits.one hheader hkind (Segment.widths?_amount hx), hrewrites.2.symm⟩
      exact ⟨_, _, (hsigned h).1, (hsigned h').1, (hsigned h).2.trans (hsigned h').2.symm⟩
    | _ => cases hs
  · rw [s.spells_unique hs h h']
    obtain ⟨segments, hlayout⟩ := s.exists_layout hheader hfits h'
    exact hlayout.splits.agreeSigned

end

mutual

theorem Value.agreeSigned {id : FieldId} {header : Bytes}
    (hheader : id.encode = .ok header) :
    ∀ {v : Value} {u u' : Bytes}, v.Fits id → v.Spells u → v.Spells u' →
      AgreeSigned (header ++ u) (header ++ u')
  | .scalar _, _, _, hfits, h, h' => Scalar.agreeSigned hheader hfits h h'
  | .object _, _, _, hfits, ⟨_, h, rfl⟩, ⟨_, h', rfl⟩ => by
    have hopening := Splits.bare hheader (FieldId.kind?_of_fits hfits) (.inl rfl)
    have hending := Splits.bare FieldId.encode_objectEnd
      (show FieldId.objectEnd.kind? = some .object by decide) (.inl rfl)
    exact hopening.agreeSigned.append
      ((Object.agreeSigned h h').append hending.agreeSigned)
  | .array _, _, _, hfits, ⟨_, h, rfl⟩, ⟨_, h', rfl⟩ => by
    have hopening := Splits.bare hheader (FieldId.kind?_of_fits hfits) (.inr rfl)
    have hending := Splits.bare FieldId.encode_arrayEnd
      (show FieldId.arrayEnd.kind? = some .array by decide) (.inr rfl)
    exact hopening.agreeSigned.append
      ((Elements.agreeSigned h h').append hending.agreeSigned)

/-- Two spellings of one object are `AgreeSigned`: they differ in sign bits only. -/
theorem Object.agreeSigned :
    ∀ {o : Object} {u u' : Bytes}, Object.Spells o u → Object.Spells o u' →
    AgreeSigned u u'
  | [], _, _, rfl, rfl => Splits.nil.agreeSigned
  | (id, v) :: rest, _, _, ⟨header, x, y, hheader, hfits, hx, hy, rfl⟩,
      ⟨header', x', y', hheader', _, hx', hy', rfl⟩ => by
    -- the header of a field is one, so both spellings start with it
    cases hheader.symm.trans hheader'
    rw [← List.append_assoc, ← List.append_assoc]
    exact (Value.agreeSigned hheader hfits hx hx').append (Object.agreeSigned hy hy')

theorem Elements.agreeSigned :
    ∀ {es : Elements} {u u' : Bytes}, Elements.Spells es u → Elements.Spells es u' →
      AgreeSigned u u'
  | [], _, _, rfl, rfl => Splits.nil.agreeSigned
  | (id, o) :: rest, _, _, ⟨header, x, y, hheader, hkind, hx, hy, rfl⟩,
      ⟨header', x', y', hheader', _, hx', hy', rfl⟩ => by
    cases hheader.symm.trans hheader'
    have hfits : (Value.object o).Fits id := hkind.symm
    have helement := Value.agreeSigned hheader hfits ⟨x, hx, rfl⟩ ⟨x', hx', rfl⟩
    have hall := helement.append (Elements.agreeSigned hy hy')
    rwa [List.append_assoc header, List.append_assoc header] at hall

end

/-! ## Verified forms -/

namespace Signing

variable {o : Object} {bs bs' : Bytes}

/-- Of a form, only the tree that `Object.decode` reads it as matters to `verify`. -/
theorem verify_congr (h : Object.decode bs = Object.decode bs') :
    verify bs = verify bs' := by
  rw [verify, verify, h]

/-- The transaction of a form that `verify` accepts is written by `Object.encode` as the
form exactly if no payload of the form is oversized and no native amount lacks its sign
bit. What it is written as is the form with all sign bits set by `Segment.signed`, and
this is verified as the same transaction. All forms that are verified as one transaction
have the same octets when their sign bits are set. -/
theorem verified_forms (h : verify bs = .ok o) :
    ∃ segments, Segment.split bs = some segments ∧ segments.flatMap Segment.octets = bs ∧
      (Object.encode o = .ok bs ↔ ∀ s ∈ segments, ¬ s.IsOversized ∧ ¬ s.LacksSign) ∧
      (∀ bs', Object.encode o = .ok bs' →
        bs' = segments.flatMap Segment.signed ∧ verify bs' = .ok o) ∧
      ∀ bs', verify bs' = .ok o →
        ∃ segments', Segment.split bs' = some segments' ∧
          segments'.flatMap Segment.octets = bs' ∧
            segments'.flatMap Segment.signed = segments.flatMap Segment.signed := by
  have hdecode := decode_of_verify h
  obtain ⟨segments, hsplit, hoctets, hrewrites⟩ :=
    Object.exists_segments_of_decode hdecode
  refine ⟨segments, hsplit, hoctets, ?_, ?_, ?_⟩
  · constructor
    -- nothing in a form that is written again lacks, since setting the bits changed
    -- nothing
    · intro hencode
      rw [hencode] at hrewrites
      obtain ⟨hsmall, hsigned⟩ := hrewrites
      rw [← hoctets] at hsigned
      have hsign := (Segment.flatMap_signed_eq_iff segments).mp hsigned.symm
      exact fun s hs => ⟨hsmall s hs, hsign s hs⟩
    · intro hplain
      cases hencode : Object.encode o with
      | error e =>
        rw [hencode] at hrewrites
        obtain ⟨⟨s, hs, hbig⟩, -⟩ := hrewrites
        exact absurd hbig (hplain s hs).1
      | ok bs' =>
        rw [hencode] at hrewrites
        have hsame :=
          (Segment.flatMap_signed_eq_iff segments).mpr fun s hs => (hplain s hs).2
        rw [hrewrites.2, hsame, hoctets]
  · intro bs' hencode
    rw [hencode] at hrewrites
    have hback := (Object.canonical_of_decode hdecode).decode_encode hencode
    refine ⟨hrewrites.2, ?_⟩
    rw [← h]
    exact verify_congr (hback.trans hdecode.symm)
  · intro bs' h'
    -- both forms are spellings of the tree that they are read as
    obtain ⟨t, t', ht, ht', hagree⟩ := Object.agreeSigned
      (Object.decode_eq_ok.mp hdecode).spells
      (Object.decode_eq_ok.mp (decode_of_verify h')).spells
    have htsegments : t = segments := Option.some.inj (ht.split_eq.symm.trans hsplit)
    subst htsegments
    exact ⟨t', ht'.split_eq, ht'.1, hagree.symm⟩

/-- The public key of the signer of `feeless`. -/
def feelessKey : Bytes :=
  [0xED, 0xA5, 0x7E, 0xBB, 0xCB, 0x50, 0x2C, 0x20,
   0x09, 0xEF, 0xE1, 0x72, 0x29, 0xE8, 0xDC, 0x86,
   0x5D, 0xCC, 0xB1, 0x92, 0xC5, 0x2D, 0x78, 0x88,
   0xD6, 0x24, 0xDC, 0x9E, 0xBA, 0xDD, 0xB8, 0x15,
   0xF0]

/-- The signature of `feeless` by the owner of `feelessKey`. -/
def feelessSignature : Bytes :=
  [0x80, 0x66, 0x3D, 0xC1, 0x32, 0xC5, 0x98, 0xF7,
   0x88, 0x98, 0xED, 0x5E, 0xE6, 0xF7, 0x2C, 0x19,
   0x9D, 0x0E, 0x60, 0x1A, 0x31, 0xDE, 0x86, 0x3F,
   0xBE, 0xCE, 0x0B, 0xAE, 0x4D, 0x3D, 0xE3, 0x9C,
   0x7C, 0xDE, 0xDF, 0x16, 0xB2, 0x9D, 0x05, 0xCE,
   0xC5, 0xC6, 0x0C, 0x56, 0xE4, 0x2B, 0x6C, 0x33,
   0x5A, 0x56, 0xDB, 0x22, 0xF5, 0xC6, 0x94, 0x62,
   0xE2, 0x5C, 0x09, 0xD4, 0xB5, 0x42, 0x6F, 0x06]

/-- The form of the transaction `feeless` with the sign octet of its fee. -/
def feelessForm (sign : UInt8) : Bytes :=
  [0x68, sign, 0, 0, 0, 0, 0, 0, 0, 0x73, 33] ++ feelessKey ++ [0x74, 64] ++
    feelessSignature

/-- A signed transaction that has a fee of nothing, and no other fields. -/
def feeless : Object :=
  [(Field.fee, .scalar (.amount (.native ⟨0, by decide⟩))),
    (Field.signingPubKey, blobValue feelessKey),
    (Field.txnSignature, blobValue feelessSignature)]

/-- The form without the sign bit is verified as `feeless`. -/
theorem verify_feelessForm : verify (feelessForm 0) = .ok feeless := by
  have hverified : (verify (feelessForm 0)).isOk = true := by decide +kernel
  have hdecode : Object.decode (feelessForm 0) = .ok feeless := rfl
  cases h : verify (feelessForm 0) with
  | error e =>
    rw [h] at hverified
    cases hverified
  | ok o => exact (decode_of_verify h).symm.trans hdecode

/-- What the transaction `feeless` is written as is verified, and it is another form. -/
theorem verified_forms_feeless :
    ∃ bs', Object.encode feeless = .ok bs' ∧ verify bs' = .ok feeless ∧
    bs' ≠ feelessForm 0 := by
  obtain ⟨segments, hsplit, -, hsame, hwritten, -⟩ := verified_forms verify_feelessForm
  obtain ⟨bs', hbs'⟩ : ∃ bs', Object.encode feeless = .ok bs' := ⟨_, rfl⟩
  refine ⟨bs', hbs', (hwritten bs' hbs').2, ?_⟩
  rintro rfl
  -- the fee is a segment that lacks its sign
  cases hsplit
  exact absurd (hsame.mp hbs') (by decide)

/-- Both forms `feelessForm` are verified as one transaction, and it is not written as the
one of them. -/
theorem feelessForm_malleable :
    verify (feelessForm 0) = .ok feeless ∧ verify (feelessForm 0x40) = .ok feeless ∧
      feelessForm 0 ≠ feelessForm 0x40 ∧ Object.encode feeless ≠ .ok (feelessForm 0) := by
  have hsame : verify (feelessForm 0x40) = verify (feelessForm 0) := verify_congr rfl
  have hencode : Object.encode feeless = .ok (feelessForm 0x40) := rfl
  have hne : feelessForm 0 ≠ feelessForm 0x40 := by decide
  refine ⟨verify_feelessForm, hsame.trans verify_feelessForm, hne, ?_⟩
  rw [hencode]
  exact fun h => hne (Except.ok.inj h).symm

end Signing

end XrpLedger
