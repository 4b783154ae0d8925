import XrpLedger.Ledger.Entry
import XrpLedger.Proofs.ObjectMap

/-!
# The type in front of ledger entries

No field comes before the entry type in canonical order, so that an entry that has a type
has it in front. The two octets behind the first header are all that a look at the whole
field tree would tell.

- `FieldId.ledgerEntryType_le`: the entry type is the first field in canonical order.
- `Object.get?_of_lt_head`: what comes before the first field of an object is not in it.
- `LedgerEntry.leadingType_eq_ok`: the type in front is the one in the field tree.
- `LedgerEntry.decode_agrees`: which entries are read, and what they are read as.
-/

namespace XrpLedger

/-! ## The first field -/

/-- Whatever `encode` gives a header does not come before the entry type. -/
theorem FieldId.ledgerEntryType_le {id : FieldId} {header : Bytes}
    (h : id.encode = .ok header) :
    Field.ledgerEntryType ≤ id := by
  unfold encode at h
  split at h
  · cases h
  · next hzero =>
    rw [not_or] at hzero
    have hkind : id.kindCode.toNat ≠ 0 := fun h => hzero.1 (UInt8.toNat_inj.mp h)
    have hfield : id.fieldCode.toNat ≠ 0 := fun h => hzero.2 (UInt8.toNat_inj.mp h)
    show Field.ledgerEntryType.rank ≤ id.rank
    -- the rank of the entry type is the least one of two codes above zero
    have hrank : Field.ledgerEntryType.rank = 257 := by decide
    rw [hrank, FieldId.rank]
    omega

/-- The field that `getNamed?` finds by the name of the entry type. -/
theorem Object.getNamed?_ledgerEntryType (o : Object) :
    getNamed? o "LedgerEntryType" = get? o Field.ledgerEntryType := by
  have hname : FieldId.ofName? "LedgerEntryType" = some Field.ledgerEntryType := by decide
  rw [getNamed?, hname]

/-- What comes before the first field of an object is not found in the object
by `get?`. -/
theorem Object.get?_of_lt_head {i id : FieldId} {w : Value} {rest : Object}
    (ho : Ascending ((i, w) :: rest)) (hid : id < i) :
    get? ((i, w) :: rest) id = none := by
  by_contra hsome
  obtain ⟨v, hv⟩ := Option.ne_none_iff_exists'.mp hsome
  rcases List.mem_cons.mp (mem_of_get? hv) with h | h
  · cases h
    exact FieldId.lt_irrefl _ hid
  · have hbehind : i < id := (ascending_cons.mp ho).1 (id, v) h
    exact FieldId.lt_asymm hid hbehind

/-- The fields of an object that `Spells` an octet string hold values of their kinds. -/
theorem Object.Spells.fits {o : Object} {u : Bytes} (h : Spells o u) :
    ∀ field ∈ o, field.2.Fits field.1 := by
  induction o generalizing u with
  | nil => simp
  | cons field rest ih =>
    obtain ⟨header, x, y, -, hfits, -, hrest, -⟩ := h
    exact List.forall_mem_cons.mpr ⟨hfits, ih hrest⟩

/-- A value that `Fits` the entry type is a number of two octets. -/
theorem Value.Fits.exists_uint16 {v : Value} (h : v.Fits Field.ledgerEntryType) :
    ∃ t, v = .scalar (.uint16 t) := by
  have hkind : v.kind = .uint16 := FieldKind.code_inj h
  have hholds := v.holds_kind
  rw [hkind] at hholds
  exact hholds

namespace LedgerEntry

variable {bs : Bytes} {o : Object}

/-! ## The type -/

/-- The `leadingType` is read from the first header and the number behind it. -/
theorem leadingType_apply (c : Cursor) :
    leadingType c =
      (Read.fieldId? >>= fun first =>
        if first = some Field.ledgerEntryType then Read.uint16
        else Read.fail (.missingField "LedgerEntryType")) c := by
  have hname : FieldId.ofName "LedgerEntryType" = .ok Field.ledgerEntryType := by decide
  rw [leadingType, Read.bind_apply, Read.bind_apply]
  cases Read.fieldId? c with
  | mk r c' =>
    cases r with
    | error e => rfl
    | ok first =>
      simp only [Read.bind_apply, Read.lift_apply, hname]

/-- The `leadingType` of a serialized form is the entry type of the field tree. -/
theorem leadingType_eq_ok {levels : Nat} (h : Object.Readable levels none o bs)
    (t : UInt16) :
    (leadingType (Cursor.start bs)).1 = .ok t ↔
      Object.get? o Field.ledgerEntryType = some (.scalar (.uint16 t)) := by
  rw [leadingType_apply]
  cases o with
  | nil =>
    obtain rfl := Object.readable_nil.mp h
    exact iff_of_false nofun nofun
  | cons field rest =>
    obtain ⟨id, v⟩ := field
    have hascending := h.inOrder.ascending
    obtain ⟨header, x, y, hheader, -, -, hfits, hv, -, rfl⟩ := Object.readable_cons.mp h
    have hpast := Cursor.past_advance (c := Cursor.start (header ++ (x ++ y))) rfl
    have hfirst := Read.fieldId?_eq_ok.mpr (.inr ⟨id, header, rfl, hheader, hpast⟩)
    rw [Read.bind_ok hfirst]
    by_cases hid : id = Field.ledgerEntryType
    · -- a field of this kind holds a number of two octets
      subst hid
      rw [if_pos rfl, Object.get?, if_pos rfl]
      obtain ⟨t', rfl⟩ := hfits.exists_uint16
      have hx : x = Bytes.ofNat 2 t'.toNat := Value.readable_scalar.mp hv
      have hpast' := Cursor.past_advance (c := (Cursor.start (header ++ (x ++ y))).advance
        header.length) (u := x) (w := y) (List.drop_left ..)
      have hread := (Read.reads_uint16 _ (Nat.lt_succ_self _) t' _).mpr ⟨x, hx, hpast'⟩
      rw [hread, Except.ok.injEq, Option.some.injEq, Value.scalar.injEq,
        Scalar.uint16.injEq]
    · rw [if_neg (by simpa using hid)]
      -- another field in front is behind the entry type in order, so the object has none
      have hlt : Field.ledgerEntryType < id :=
        Nat.lt_of_le_of_ne (FieldId.ledgerEntryType_le hheader) fun h =>
          hid (FieldId.rank_inj h.symm)
      rw [Object.get?_of_lt_head hascending hlt]
      constructor
      · intro h
        cases h
      · intro h
        cases h

/-! ## Entries -/

/-- The entry of a field tree with a given type. -/
def ofTyped (t : UInt16) (o : Object) : Except CodecError LedgerEntry :=
  if t = AccountRoot.entryType then
    AccountRoot.ofObject o >>= fun r => .ok (.accountRoot r)
  else .ok (.other t o)

/-- What `ofTyped` makes of a field tree is an entry of the type, an account root or the
tree itself. -/
theorem ofTyped_eq_ok {t : UInt16} {e : LedgerEntry} :
    ofTyped t o = .ok e ↔ e.entryType = t ∧
      ((∃ r, AccountRoot.ofObject o = .ok r ∧ e = .accountRoot r) ∨
        (t ≠ AccountRoot.entryType ∧ e = .other t o)) := by
  unfold ofTyped
  by_cases ht : t = AccountRoot.entryType
  · subst ht
    rw [if_pos rfl]
    cases AccountRoot.ofObject o with
    | error e =>
      refine iff_of_false nofun ?_
      rintro ⟨-, ⟨r, h, -⟩ | ⟨h, -⟩⟩
      · cases h
      · exact h rfl
    | ok r =>
      constructor
      · intro h
        cases h
        exact ⟨rfl, .inl ⟨r, rfl, rfl⟩⟩
      · rintro ⟨-, ⟨r, h, rfl⟩ | ⟨h, -⟩⟩
        · cases h
          rfl
        · exact absurd rfl h
  · rw [if_neg ht, Except.ok.injEq]
    constructor
    · rintro rfl
      exact ⟨rfl, .inr ⟨ht, rfl⟩⟩
    · rintro ⟨htype, ⟨r, -, rfl⟩ | ⟨-, rfl⟩⟩
      · exact absurd htype.symm ht
      · rfl

/-- What `decode` reads is told by the field tree that `Object.decode` reads and the entry
type in it. -/
theorem decode_eq_ok {e : LedgerEntry} :
    decode bs = .ok e ↔ ∃ o t, Object.decode bs = .ok o ∧
      Object.get? o Field.ledgerEntryType = some (.scalar (.uint16 t)) ∧
      ofTyped t o = .ok e := by
  rw [decode]
  constructor
  · intro h
    -- both the type in front and the field tree have to be read
    cases hcode : (leadingType (Cursor.start bs)).1 with
    | error e =>
      rw [hcode] at h
      cases h
    | ok t =>
      cases ho : Object.decode bs with
      | error e =>
        rw [hcode, ho] at h
        cases h
      | ok o =>
        rw [hcode, ho] at h
        exact ⟨o, t, rfl, (leadingType_eq_ok (Object.decode_eq_ok.mp ho) t).mp hcode, h⟩
  · rintro ⟨o, t, ho, ht, h⟩
    rw [(leadingType_eq_ok (Object.decode_eq_ok.mp ho) t).mpr ht, ho]
    exact h

/-- An entry is read by `decode` if its field tree is by `Object.decode`, the tree has an
entry type, and it is that of an account root only if the tree is one for
`AccountRoot.ofObject`. What is read is then the account root or the tree itself, and the
type of the entry is the one in the tree. -/
theorem decode_agrees (bs : Bytes) :
    ((∃ e, decode bs = .ok e) ↔
      ∃ o v, Object.decode bs = .ok o ∧ Object.getNamed? o "LedgerEntryType" = some v ∧
        (v ≠ .scalar (.uint16 AccountRoot.entryType) ∨
          ∃ r, AccountRoot.ofObject o = .ok r)) ∧
    ∀ e, decode bs = .ok e ↔
      ∃ o, Object.decode bs = .ok o ∧
        Object.getNamed? o "LedgerEntryType" = some (.scalar (.uint16 e.entryType)) ∧
        ((∃ r, AccountRoot.ofObject o = .ok r ∧ e = .accountRoot r) ∨
          (e.entryType ≠ AccountRoot.entryType ∧ e = .other e.entryType o)) := by
  constructor
  · constructor
    · rintro ⟨e, he⟩
      obtain ⟨o, t, ho, ht, htyped⟩ := decode_eq_ok.mp he
      refine ⟨o, _, ho, (Object.getNamed?_ledgerEntryType o).trans ht, ?_⟩
      obtain ⟨-, ⟨r, hr, -⟩ | ⟨hne, -⟩⟩ := ofTyped_eq_ok.mp htyped
      · exact .inr ⟨r, hr⟩
      · exact .inl (by simpa using hne)
    · rintro ⟨o, v, ho, hv, h⟩
      rw [Object.getNamed?_ledgerEntryType] at hv
      obtain ⟨t, rfl⟩ := ((Object.decode_eq_ok.mp ho).spells.fits _
        (Object.mem_of_get? hv)).exists_uint16
      -- the type of an account root asks for an account root, any other for nothing
      by_cases ht : t = AccountRoot.entryType
      · subst ht
        obtain ⟨r, hr⟩ := h.resolve_left (not_not_intro rfl)
        exact ⟨.accountRoot r, decode_eq_ok.mpr
          ⟨o, _, ho, hv, ofTyped_eq_ok.mpr ⟨rfl, .inl ⟨r, hr, rfl⟩⟩⟩⟩
      · exact ⟨.other t o, decode_eq_ok.mpr
          ⟨o, t, ho, hv, ofTyped_eq_ok.mpr ⟨rfl, .inr ⟨ht, rfl⟩⟩⟩⟩
  · intro e
    rw [decode_eq_ok]
    constructor
    · rintro ⟨o, t, ho, ht, htyped⟩
      obtain ⟨rfl, h⟩ := ofTyped_eq_ok.mp htyped
      exact ⟨o, ho, (Object.getNamed?_ledgerEntryType o).trans ht, h⟩
    · rintro ⟨o, ho, ht, h⟩
      exact ⟨o, e.entryType, ho, (Object.getNamed?_ledgerEntryType o).symm.trans ht,
        ofTyped_eq_ok.mpr ⟨rfl, h⟩⟩

end LedgerEntry

end XrpLedger
