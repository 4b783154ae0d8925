import XrpLedger.Proofs.JsonRoundTrip
import XrpLedger.Proofs.TypedTrees

/-!
# Typed transactions of arbitrary trees

A field tree that is read as a typed transaction may hold much that transactions do not
have, and it may lack what they need not have. All that the transaction says stands in the
tree, but for flags of zero, which the tree may lack, and for the memos: these are wrapped
as memos whatever they were wrapped as, and they have the three fields that memos have,
whatever else they had.

- `Memo.toObject_of_ofObject`: the part of an object that a memo keeps.
- `TransactionKind.entries_of_ofObject`: the type-dependent part stands in the tree.
- `Transaction.entries_of_ofObject`: so does all but flags and memos.
- `Transaction.ofObject_faithful`: what the tree of the transaction has in common with the
  tree that it was read from.
-/

namespace XrpLedger

open Object TypedField

/-! ## Memos -/

/-- The fields that memos have. -/
def memoFields : List FieldId :=
  [Field.memoType, Field.memoData, Field.memoFormat]

/-- The part of an object that a memo keeps: its `memoFields`. -/
def memoPart (o : Object) : Object :=
  o.filter fun field => decide (field.1 ∈ memoFields)

/-- An object is its own `memoPart` if it has no other fields than `memoFields`. -/
theorem memoPart_eq_self_iff {o : Object} :
    memoPart o = o ↔ ∀ field ∈ o, field.1 ∈ memoFields := by
  simp [memoPart, List.filter_eq_self]

namespace Memo

/-- All that `Memo.ofObject` reads of a memo stands in the object. -/
theorem entries_of_ofObject {o : Object} {m : Memo} (h : Memo.ofObject o = .ok m) :
    ∀ entry ∈ m.entries, get? o entry.1 = entry.2 := by
  simp only [ofObject, except_bind_eq_ok, except_pure_eq_ok] at h
  obtain ⟨type, htype, data, hdata, format, hformat, rfl⟩ := h
  simp only [entries, List.forall_mem_cons]
  exact ⟨memoType.get?_of_get htype,
    memoData.get?_of_get hdata,
    memoFormat.get?_of_get hformat,
    by simp⟩

/-- A memo that `Memo.ofObject` reads is the `memoPart` of the object. -/
theorem toObject_of_ofObject {o : Object} {m : Memo} (ho : Ascending o)
    (h : Memo.ofObject o = .ok m) : m.toObject = memoPart o := by
  have hfields : m.entries.map Prod.fst = memoFields := rfl
  -- ascending lists with the same fields are the same
  have hascending := m.madeOf_entries.ascending
  refine hascending.ext_mem (ho.sublist List.filter_sublist) fun id v => ?_
  rw [hascending.mem_iff, memoPart, List.mem_filter, ho.mem_iff, decide_eq_true_iff]
  by_cases hid : id ∈ memoFields
  · -- a field that memos have is an entry, and what it holds was read from the object
    obtain ⟨entry, hentry, rfl⟩ := List.mem_map.mp (hfields ▸ hid)
    rw [m.madeOf_entries.get?_eq entry hentry, entries_of_ofObject h entry hentry]
    exact (and_iff_left hid).symm
  · simp [m.madeOf_entries.get?_eq_none (hfields ▸ hid), hid]

/-- Memos that are read are the `memoPart` of each element, in their order. -/
theorem toObject_of_mapM {es : Elements} {ms : List Memo} (horder : Elements.InOrder es)
    (h : (es.mapM fun element => Memo.ofObject element.2) = .ok ms) :
    ms.map (fun m => (Field.memo, m.toObject)) = es.map fun e =>
      (Field.memo, memoPart e.2) := by
  have hread := mapM_eq_ok.mp h
  induction hread with
  | nil => rfl
  | cons hm hms ih =>
    obtain ⟨ho, hrest⟩ := horder
    rw [List.map_cons, List.map_cons, toObject_of_ofObject ho.ascending hm,
      ih hrest (mapM_eq_ok.mpr hms)]

end Memo

/-! ## Types -/

namespace TransactionKind

/-- What `requireIssued` takes is an amount that `requireNamed` finds, and an
issued one. -/
theorem requireNamed_of_requireIssued {o : Object} {name : String} {refusal : AmountFault}
    {a : IssuedAmount} (h : requireIssued o name refusal = .ok a) :
    requireNamed o name Value.amount? = .ok (.issued a) := by
  obtain ⟨b, hb, h⟩ := except_bind_eq_ok.mp h
  -- a native amount is refused, so what is read is the issued one
  cases b with
  | native d => cases h
  | issued b =>
    cases h
    exact hb

/-- The type-dependent part that `TransactionKind.ofObject` reads stands in the tree,
under the name of its type. -/
theorem entries_of_ofObject {o : Object} {name : String} {kind : TransactionKind}
    (h : ofObject o name = .ok kind) :
    name = kind.name ∧ ∀ entry ∈ kind.entries, get? o entry.1 = entry.2 := by
  unfold ofObject at h
  split at h
  · next hname =>
    simp only [except_bind_eq_ok, except_pure_eq_ok] at h
    obtain ⟨_, hdestination, _, hamount, _, hdestinationTag, _,
      hinvoiceId, _, hsendMax, _, hdeliverMin, rfl⟩ := h
    simp only [entries, List.forall_mem_cons]
    exact ⟨hname,
      destination.get?_of_require hdestination,
      amount.get?_of_require hamount,
      destinationTag.get?_of_get hdestinationTag,
      invoiceId.get?_of_get hinvoiceId,
      sendMax.get?_of_get hsendMax,
      deliverMin.get?_of_get hdeliverMin,
      by simp⟩
  split at h
  · next hname =>
    simp only [except_bind_eq_ok, except_pure_eq_ok] at h
    obtain ⟨_, hsetFlag, _, hclearFlag, _, hdomain, _, hemailHash, _,
      htransferRate, _, htickSize, rfl⟩ := h
    simp only [entries, List.forall_mem_cons]
    exact ⟨hname,
      setFlag.get?_of_get hsetFlag,
      clearFlag.get?_of_get hclearFlag,
      domain.get?_of_get hdomain,
      emailHash.get?_of_get hemailHash,
      transferRate.get?_of_get htransferRate,
      tickSize.get?_of_get htickSize,
      by simp⟩
  split at h
  · next hname =>
    simp only [except_bind_eq_ok, except_pure_eq_ok] at h
    obtain ⟨_, hregularKey, rfl⟩ := h
    simp only [entries, List.forall_mem_cons]
    exact ⟨hname, regularKey.get?_of_get hregularKey, by simp⟩
  split at h
  · next hname =>
    simp only [except_bind_eq_ok, except_pure_eq_ok] at h
    obtain ⟨_, hissued, _, hqualityIn, _, hqualityOut, rfl⟩ := h
    simp only [entries, List.forall_mem_cons]
    exact ⟨hname,
      limitAmount.get?_of_require (requireNamed_of_requireIssued hissued),
      qualityIn.get?_of_get hqualityIn,
      qualityOut.get?_of_get hqualityOut,
      by simp⟩
  split at h
  · next hname =>
    simp only [except_bind_eq_ok, except_pure_eq_ok] at h
    obtain ⟨_, htakerPays, _, htakerGets, _, hexpiration, _, hofferSequence, rfl⟩ := h
    simp only [entries, List.forall_mem_cons]
    exact ⟨hname,
      takerPays.get?_of_require htakerPays,
      takerGets.get?_of_require htakerGets,
      expiration.get?_of_get hexpiration,
      offerSequence.get?_of_get hofferSequence,
      by simp⟩
  split at h
  · next hname =>
    simp only [except_bind_eq_ok, except_pure_eq_ok] at h
    obtain ⟨_, hofferSequence, rfl⟩ := h
    simp only [entries, List.forall_mem_cons]
    exact ⟨hname, offerSequence.get?_of_require hofferSequence, by simp⟩
  · cases h

/-- Each type has one code, the one that `name?` names. -/
theorem code_of_name? {kind : TransactionKind} {code : UInt16}
    (h : TransactionType.name? code = some kind.name) : code = kind.code := by
  have hcode : TransactionType.code? kind.name = some kind.code := by
    cases kind <;> rfl
  rw [TransactionType.code?_of_name? h] at hcode
  exact Option.some.inj hcode

end TransactionKind

/-! ## Transactions -/

namespace Transaction

variable {o : Object} {tx : Transaction}

/-- What `kindOfObject` reads stands in the tree, and so does the code of the type. -/
theorem kind_of_kindOfObject {kind : TransactionKind} (h : kindOfObject o = .ok kind) :
    get? o Field.transactionType = some (.scalar (.uint16 kind.code)) ∧
      ∀ entry ∈ kind.entries, get? o entry.1 = entry.2 := by
  obtain ⟨code, hcode, h⟩ := except_bind_eq_ok.mp h
  split at h
  · next name hname =>
    obtain ⟨rfl, hentries⟩ := TransactionKind.entries_of_ofObject h
    rw [← TransactionKind.code_of_name? hname]
    exact ⟨transactionType.get?_of_require hcode, hentries⟩
  · cases h

/-- The fee that `feeOfObject` reads stands in the tree. -/
theorem fee_of_feeOfObject {fee : Drops} (h : feeOfObject o = .ok fee) :
    get? o Field.fee = some (.scalar (.amount (.native fee))) := by
  obtain ⟨a, ha, h⟩ := except_bind_eq_ok.mp h
  cases a with
  | issued a => cases h
  | native d =>
    cases h
    exact TypedField.fee.get?_of_require ha

/-- The memos that `memosOfObject` reads are the `memoPart` of each element of an array,
or there are none. -/
theorem memos_of_memosOfObject {memos : List Memo} (horder : InOrder none o)
    (h : memosOfObject o = .ok memos) {v : Value} (hv : memosValue memos = some v) :
    ∃ es : Elements, get? o Field.memos = some (.array es) ∧
      v = .array (es.map fun e => (Field.memo, memoPart e.2)) := by
  have hname : FieldId.ofName? "Memos" = some Field.memos := by decide
  unfold memosValue at hv
  split at hv
  · cases hv
  rename_i hne
  cases hv
  rw [memosOfObject, getNamed?, hname] at h
  simp only at h
  split at h
  · next es hes =>
    have hinner : Elements.InOrder es := (inOrder_iff.mp horder).2.2 _ (mem_of_get? hes)
    exact ⟨es, hes, congrArg Value.array (Memo.toObject_of_mapM hinner h)⟩
  · cases h
    exact absurd rfl hne

/-- What the transaction that `ofObject` reads says stands in the tree, but for the memos,
and for flags of zero. -/
theorem entries_of_ofObject (h : ofObject o = .ok tx) :
    (∀ entry ∈ tx.entries, entry.1 ≠ Field.flags → entry.1 ≠ Field.memos →
      get? o entry.1 = entry.2) ∧
    (tx.flags = 0 ∨ get? o Field.flags = some (.scalar (.uint32 tx.flags))) ∧
    memosOfObject o = .ok tx.memos := by
  simp only [ofObject, except_bind_eq_ok, except_pure_eq_ok] at h
  obtain ⟨kind, hkind, fee, hfee, memos, hmemos, account, haccount, sequence,
    hsequence, flags, hflags, lastLedgerSequence, hlastLedgerSequence, sourceTag,
    hsourceTag, networkId, hnetworkId, ticketSequence, hticketSequence, rfl⟩ := h
  obtain ⟨htransactionType, hentries⟩ := kind_of_kindOfObject hkind
  refine ⟨?_, ?_, hmemos⟩
  · rw [entries, List.forall_mem_append]
    refine ⟨?_, fun entry hentry _ _ => hentries entry hentry⟩
    simp only [List.forall_mem_cons, ne_eq, not_true_eq_false,
      false_implies, implies_true, List.not_mem_nil, and_true, true_and]
    exact ⟨fun _ _ => htransactionType,
      fun _ _ => TypedField.account.get?_of_require haccount,
      fun _ _ => fee_of_feeOfObject hfee,
      fun _ _ => TypedField.sequence.get?_of_require hsequence,
      fun _ _ =>
        TypedField.lastLedgerSequence.get?_of_get hlastLedgerSequence,
      fun _ _ => TypedField.sourceTag.get?_of_get hsourceTag,
      fun _ _ => TypedField.networkId.get?_of_get hnetworkId,
      fun _ _ => TypedField.ticketSequence.get?_of_get hticketSequence⟩
  · have hget := TypedField.flags.get?_of_get hflags
    cases flags with
    | none => exact .inl rfl
    | some flags => exact .inr hget

/-- A field of the tree of a transaction is one of its `entries`. -/
theorem exists_entry {id : FieldId} {v : Value} (h : get? tx.toObject id = some v) :
    (id, some v) ∈ tx.entries := by
  exact tx.madeOf_entries.get?_eq_some.mp h

/-- The tree `lower` of a transaction that `ofObject` read has no field that the tree it
was read from lacks or holds with another value, but for flags of zero and for the memos.
These are the elements of an array of that tree, each wrapped as a memo and cut down by
`memoPart` to the fields of memos. So the arrays are equal exactly if all elements were
wrapped as memos and had no other fields. -/
theorem ofObject_faithful (horder : InOrder none o) (h : ofObject o = .ok tx) :
    ∃ p, tx.lower = .ok p ∧
      (∀ id v, get? p id = some v → id ≠ Field.memos →
        ¬ (id = Field.flags ∧ v = .scalar (.uint32 0)) → get? o id = some v) ∧
      ∀ v, get? p Field.memos = some v →
      ∃ es : Elements, get? o Field.memos = some (.array es) ∧
        v = .array (es.map fun e => (Field.memo, memoPart e.2)) ∧
        (v = .array es ↔
          ∀ e ∈ es, e.1 = Field.memo ∧ ∀ field ∈ e.2, field.1 ∈ memoFields) := by
  obtain ⟨hentries, hflags, hmemos⟩ := entries_of_ofObject h
  refine ⟨tx.toObject, tx.lower_eq_ok, fun id v hv hmemo hzero => ?_, fun v hv => ?_⟩
  · have hentry := exists_entry hv
    -- flags that the tree lacks are read as zero, and zero is written
    by_cases hid : id = Field.flags
    · subst hid
      have hvalue := tx.madeOf_entries.get?_eq
        (Field.flags, some (.scalar (.uint32 tx.flags)))
        (by simp [entries])
      obtain rfl : Value.scalar (.uint32 tx.flags) = v :=
        Option.some.inj (hvalue.symm.trans hv)
      refine hflags.resolve_left fun hflags => hzero ⟨rfl, ?_⟩
      rw [hflags]
    · exact hentries _ hentry hid hmemo
  · have hvalue := tx.madeOf_entries.get?_eq (Field.memos, memosValue tx.memos)
      (by simp [entries])
    obtain ⟨es, hes, rfl⟩ := memos_of_memosOfObject horder hmemos (hvalue.symm.trans hv)
    refine ⟨es, hes, rfl, ?_⟩
    have hsame : es.map (fun e => (Field.memo, memoPart e.2)) = es ↔
        ∀ e ∈ es, (Field.memo, memoPart e.2) = e := by
      rw [← List.map_inj_left, List.map_id']
    rw [Value.array.injEq, hsame]
    refine forall₂_congr fun e _ => ?_
    rw [Prod.ext_iff, memoPart_eq_self_iff, eq_comm]

theorem one_le_maxCount : 1 ≤ Drops.maxCount := by decide

/-- The tree of a transaction with a memo that is wrapped as a signer and names an
account. -/
def signerMemo : Object :=
  [(Field.transactionType, .scalar (.uint16 8)), (Field.sequence, .scalar (.uint32 1)),
    (Field.offerSequence, .scalar (.uint32 4)),
    (Field.fee, .scalar (.amount (.native ⟨1, one_le_maxCount⟩))),
    (Field.account, .scalar (.accountId IssuedAmount.one.issuer)),
    (Field.memos, .array [(⟨14, 16⟩, [(Field.memoType, .scalar (.blob [2])),
      (Field.account, .scalar (.accountId IssuedAmount.one.issuer))])])]

/-- The transaction of that tree. -/
def signerMemoRead : Transaction :=
  ⟨IssuedAmount.one.issuer, ⟨1, one_le_maxCount⟩, 1, 0, none, none, none, none,
    [⟨some [2], none, none⟩], .offerCancel 4⟩

theorem inOrder_signerMemo : InOrder none signerMemo := by
  simp only [signerMemo, InOrder, Value.InOrder, Elements.InOrder, true_and, and_true]
  decide

theorem ofObject_signerMemo : ofObject signerMemo = .ok signerMemoRead := rfl

/-- In the tree of `signerMemoRead` the memo is wrapped as a memo, and names
no account. -/
theorem ofObject_faithful_signerMemo :
    InOrder none signerMemo ∧ ofObject signerMemo = .ok signerMemoRead ∧
      ∃ p, signerMemoRead.lower = .ok p ∧ ∀ v, get? p Field.memos = some v →
        v = .array [(Field.memo, [(Field.memoType, .scalar (.blob [2]))])] := by
  obtain ⟨p, hp, -, hmemos⟩ := ofObject_faithful inOrder_signerMemo ofObject_signerMemo
  refine ⟨inOrder_signerMemo, ofObject_signerMemo, p, hp, fun v hv => ?_⟩
  obtain ⟨es, hes, rfl, -⟩ := hmemos v hv
  cases hes
  rfl

/-- Not all that the tree of a transaction has stands in the tree that the transaction was
read from: in `signerMemo`, the wrapper of the memo does not. -/
theorem ofObject_rewraps :
    ¬ ∀ (o : Object) (tx : Transaction) (p : Object), InOrder none o →
    ofObject o = .ok tx →
      tx.lower = .ok p → ∀ id v, get? p id = some v →
        ¬ (id = Field.flags ∧ v = .scalar (.uint32 0)) → get? o id = some v := by
  intro h
  have hsame := h signerMemo signerMemoRead signerMemoRead.toObject inOrder_signerMemo
    ofObject_signerMemo signerMemoRead.lower_eq_ok Field.memos
    (.array [(Field.memo, [(Field.memoType, .scalar (.blob [2]))])]) rfl (by decide)
  revert hsame
  decide

end Transaction

end XrpLedger
