import Mathlib.Data.List.Forall2
import XrpLedger.Proofs.PrefixStability
import XrpLedger.Proofs.TreeSpelling

/-!
# Strings that are cut off

A string that is read as an object is made of one part for each field. Cut off between two
parts it is read as the object of the fields before the cut. Cut off anywhere else it is
refused for want of octets, and for nothing else.

- `Object.Parts`: the parts of a string, field by field.
- `Read.field`: the read of one field, and `Read.run_of_ne_nil`: a run is made of such
  reads.
- `Object.decode_cut`: what is read of a string that is cut off.
-/

namespace XrpLedger

namespace Read

variable {bound levels : Nat} {previous : Option FieldId} {c c' : Cursor}

/-- One field of a run after a previous field: a header, which has to follow, and
a value. -/
def field (value : FieldId → Read Value) (previous : Option FieldId) :
    Read (FieldId × Value) :=
  fieldId >>= fun id =>
    lift (FieldId.checkAfter previous id) >>= fun _ =>
      value id >>= fun v => pure (id, v)

/-- A `field` is read alike with more octets behind, if its value is. -/
theorem extendsTo_field {value value' : FieldId → Read Value}
    (hvalue : ∀ id, (value id).ExtendsTo (value' id)) (previous : Option FieldId) :
    ExtendsTo (field value previous) (field value' previous) :=
  extendsTo_fieldId.bind fun id => (extendsTo_lift _).bind fun _ => (hvalue id).map _

/-- A `run` without an end marker goes on `field` by field while there are octets. -/
theorem run_of_ne_nil (value : FieldId → Read Value) (rounds : Nat)
    (previous : Option FieldId) (h : c.rest ≠ []) :
    run value none (rounds + 1) previous c =
      (field value previous >>= fun f =>
        run value none rounds (some f.1) >>= fun rest => pure (f :: rest)) c := by
  rw [run, field, fieldId, bind_apply, bind_apply, bind_apply, bind_apply,
    fieldId?_of_ne_nil h, bind_apply]
  -- both sides fail where the header, the check or the value does
  cases decoded FieldId.decode c with
  | mk r c₁ =>
    cases r with
    | error e => rfl
    | ok id =>
      simp only [pure_apply, reduceCtorEq, if_false, bind_apply, lift_apply]
      cases FieldId.checkAfter previous id with
      | error e => rfl
      | ok _ =>
        simp only
        cases value id c₁ with
        | mk r c₂ => cases r <;> rfl

/-- A `field` is read where its header and its value stand. -/
theorem field_eq_ok {id : FieldId} {v : Value} {header x : Bytes}
    (hheader : id.encode = .ok header)
    (hfollows : id.Follows previous) (hid : ¬ id.IsEndMarker) (hfits : v.Fits id)
    (hx : v.Readable levels x) (hpast : c.Past (header ++ x) c')
    (hc : c.rest.length < bound) :
    field (valueAt bound levels) previous c = (.ok (id, v), c') := by
  obtain ⟨c₁, hpast₁, hpast₂⟩ := Cursor.past_append.mp hpast
  have hlength := hpast₁.length_eq
  have hid' : fieldId c = (.ok id, c₁) :=
    (reads_fieldId c hc id c₁).mpr ⟨header, hheader, hpast₁⟩
  have hvalue : valueAt bound levels id c₁ = (.ok v, c') :=
    (reads_valueAt bound levels id c₁ (by omega) v c').mpr ⟨x, ⟨hid, hfits, hx⟩, hpast₂⟩
  rw [field, bind_ok hid', bind_ok (by rw [lift_apply,
    FieldId.checkAfter_eq_ok.mpr hfollows]), bind_ok hvalue]
  rfl

/-- Where only the front of a field stands, `field` fails for want of octets. -/
theorem field_isEof {id : FieldId} {v : Value} {header x y : Bytes}
    (hheader : id.encode = .ok header)
    (hfollows : id.Follows previous) (hid : ¬ id.IsEndMarker) (hfits : v.Fits id)
    (hx : v.Readable levels x) (hcut : header ++ x = c.rest ++ y) (hy : y ≠ []) :
    ∃ e, e.IsEof ∧ (field (valueAt bound levels) previous c).1 = .error e := by
  -- with the octets that were cut off, and rounds enough for all, the field is read
  let more := max bound ((header ++ x).length + 1)
  have hrest : (c.extend y).rest = (header ++ x) ++ [] := by
    rw [List.append_nil, hcut]
    rfl
  have hread : field (valueAt more levels) previous (c.extend y) =
      (.ok (id, v), (c.extend y).advance (header ++ x).length) :=
    field_eq_ok hheader hfollows hid hfits hx (Cursor.past_advance hrest)
      (by rw [hrest, List.append_nil]; omega)
  refine (extendsTo_field (extendsTo_valueAt (Nat.le_max_left ..) levels) previous).isEof
    hread ?_
  have hnil : ((c.extend y).advance (header ++ x).length).rest = [] := by
    simp [Cursor.advance, hrest]
  rw [hnil]
  exact List.length_pos_of_ne_nil hy

end Read

namespace Object

variable {o : Object} {bs : Bytes} {parts : List Bytes} {previous : Option FieldId}

/-! ## Parts -/

/-- Each part is read by `decode` as one of the fields, from the first to the last. -/
def Parts (o : Object) (parts : List Bytes) : Prop :=
  List.Forall₂ (fun field part => decode part = .ok [field]) o parts

/-- A part that `decode` reads as one field is its header and its value. -/
theorem decode_singleton_eq_ok {id : FieldId} {v : Value} {part : Bytes} :
    decode part = .ok [(id, v)] ↔
      ∃ header x, id.encode = .ok header ∧ ¬ id.IsEndMarker ∧ v.Fits id ∧
        v.Readable Read.maxDepth x ∧ part = header ++ x := by
  simp only [decode_eq_ok, readable_cons, readable_nil]
  constructor
  · rintro ⟨header, x, _, hheader, -, hid, hfits, hx, rfl, rfl⟩
    exact ⟨header, x, hheader, hid, hfits, hx, by rw [List.append_nil]⟩
  · rintro ⟨header, x, hheader, hid, hfits, hx, rfl⟩
    exact ⟨header, x, [], hheader, FieldId.follows_none id, hid, hfits, hx, rfl,
      by rw [List.append_nil]⟩

/-- A string that is `Readable` as an object is made of `Parts`. -/
theorem exists_parts (h : Readable Read.maxDepth previous o bs) :
    ∃ parts, Parts o parts ∧ parts.flatten = bs := by
  induction o generalizing previous bs with
  | nil => exact ⟨[], .nil, (readable_nil.mp h).symm⟩
  | cons field rest ih =>
    obtain ⟨id, v⟩ := field
    obtain ⟨header, x, y, hheader, -, hid, hfits, hx, hrest, rfl⟩ := readable_cons.mp h
    obtain ⟨parts, hparts, rfl⟩ := ih hrest
    refine ⟨(header ++ x) :: parts, .cons ?_ hparts, by rw [List.flatten_cons,
      List.append_assoc]⟩
    exact decode_singleton_eq_ok.mpr ⟨header, x, hheader, hid, hfits, hx, rfl⟩

/-- Strings that are `Parts` of an object in order make up a string that is `Readable` as
it. -/
theorem Parts.readable (hparts : Parts o parts) (horder : InOrder previous o) :
    Readable Read.maxDepth previous o parts.flatten := by
  induction hparts generalizing previous with
  | nil => exact readable_nil.mpr rfl
  | @cons field part rest parts hpart _ ih =>
    obtain ⟨id, v⟩ := field
    obtain ⟨hfollows, -, hrest⟩ := horder
    obtain ⟨header, x, hheader, hid, hfits, hx, rfl⟩ := decode_singleton_eq_ok.mp hpart
    rw [List.flatten_cons, List.append_assoc]
    exact readable_cons.mpr ⟨header, x, _, hheader, hfollows, hid, hfits,
      hx, ih hrest, rfl⟩

/-- The first fields are `InOrder` if all are. -/
theorem InOrder.take (h : InOrder previous o) (k : Nat) :
    InOrder previous (o.take k) := by
  induction o generalizing previous k with
  | nil =>
    rw [List.take_nil]
    exact h
  | cons field rest ih =>
    obtain ⟨hfollows, hv, hrest⟩ := h
    cases k with
    | zero => trivial
    | succ k => exact ⟨hfollows, hv, ih hrest k⟩

/-- The first `Parts` are read by `decode` as the first fields. -/
theorem Parts.decode_take (hparts : Parts o parts) (horder : InOrder none o) (k : Nat) :
    decode (parts.take k).flatten = .ok (o.take k) :=
  decode_eq_ok.mpr (Parts.readable (List.forall₂_take k hparts) (horder.take k))

/-! ## Cuts -/

/-- The front of a part and of what follows it ends within the part, or it holds all of
it. -/
theorem front_cases {front w part rest : Bytes} (h : front ++ w = part ++ rest) :
    (∃ y, y ≠ [] ∧ part = front ++ y) ∨ ∃ p, front = part ++ p ∧ p ++ w = rest := by
  rcases List.append_eq_append_iff.mp h with ⟨y, rfl, rfl⟩ | ⟨p, rfl, rfl⟩
  · by_cases hy : y = []
    · subst hy
      exact .inr ⟨[], by simp, rfl⟩
    · exact .inl ⟨y, hy, rfl⟩
  · exact .inr ⟨p, rfl, rfl⟩

/-- A `run` over the front of a string of `Parts`, where the front ends within a part,
fails for want of octets. -/
theorem Parts.run_isEof {bound : Nat} (hparts : Parts o parts)
    (horder : InOrder previous o)
    {rounds : Nat} (hrounds : rounds ≤ bound) {c : Cursor} (hc : c.rest.length < rounds)
    {w : Bytes}
    (hw : c.rest ++ w = parts.flatten) (hwithin : ∀ k, c.rest ≠ (parts.take k).flatten) :
    ∃ e, e.IsEof ∧
      (Read.run (Read.valueAt bound Read.maxDepth) none rounds previous c).1 =
      .error e := by
  -- on the parts: the one in front is read, or the front ends within it
  induction hparts generalizing previous rounds c with
  | nil => exact absurd (List.append_eq_nil_iff.mp hw).1 (hwithin 0)
  | @cons field part rest parts hpart _ ih =>
    obtain ⟨id, v⟩ := field
    obtain ⟨hfollows, -, hrest⟩ := horder
    obtain ⟨header, x, hheader, hid, hfits, hx, rfl⟩ := decode_singleton_eq_ok.mp hpart
    obtain ⟨rounds, rfl⟩ : ∃ r, rounds = r + 1 := ⟨rounds - 1, by omega⟩
    rw [Read.run_of_ne_nil _ rounds previous (hwithin 0)]
    rcases front_cases hw with ⟨y, hy, hcut⟩ | ⟨p, hp, hmore⟩
    · -- the front ends within this part
      obtain ⟨e, he, hfield⟩ : ∃ e, e.IsEof ∧
          (Read.field (Read.valueAt bound Read.maxDepth) previous c).1 = .error e :=
        Read.field_isEof hheader hfollows hid hfits hx hcut hy
      exact ⟨e, he, by rw [Read.bind_error (Prod.ext hfield rfl)]⟩
    · -- the field of this part is read, and the front ends within a part behind it
      have hread := Read.field_eq_ok hheader hfollows hid hfits hx
        (Cursor.past_advance hp)
        (Nat.lt_of_lt_of_le hc hrounds)
      have hleft : (c.advance (header ++ x).length).rest = p := by
        rw [Cursor.advance, hp, List.drop_left]
      have hfewer : p.length < rounds := by
        have hpos := List.length_pos_of_ne_nil (FieldId.encode_ne_nil hheader)
        rw [hp] at hc
        simp only [List.length_append] at hc
        omega
      have hbehind : ∀ k, p ≠ (parts.take k).flatten := by
        rintro k rfl
        exact hwithin (k + 1) (by rw [List.take_succ_cons, List.flatten_cons, hp])
      rw [← hleft] at hfewer hmore hbehind
      obtain ⟨e, he, hrun⟩ := ih hrest (Nat.le_of_succ_le hrounds) hfewer hmore hbehind
      exact ⟨e, he, by rw [Read.bind_ok hread, Read.bind_error (Prod.ext hrun rfl)]⟩

/-- A string that `decode` reads as an object is made of `Parts` that are each read as one
of its fields. Cut off behind any number of parts, it is read as the object of just these
fields. Cut off anywhere else, it is refused for want of octets. -/
theorem decode_cut (h : decode bs = .ok o) :
    (∃ parts, Parts o parts ∧ parts.flatten = bs) ∧
      ∀ parts, Parts o parts → parts.flatten = bs → ∀ n < bs.length,
        (∀ k, (parts.take k).flatten.length = n → decode (bs.take n) = .ok (o.take k)) ∧
          ((∀ k, (parts.take k).flatten.length ≠ n) →
            ∃ needed left, decode (bs.take n) = .error (.unexpectedEof needed left)) := by
  have hread := decode_eq_ok.mp h
  refine ⟨exists_parts hread, fun parts hparts hflatten n hn => ⟨?_, ?_⟩⟩
  · rintro k rfl
    -- the front is made of the first parts
    have hfront : bs.take (parts.take k).flatten.length = (parts.take k).flatten := by
      rw [← hflatten]
      nth_rewrite 2 [← List.take_append_drop k parts]
      rw [List.flatten_append, List.take_left]
    rw [hfront]
    exact hparts.decode_take hread.inOrder k
  · intro hwithin
    have hlength : (bs.take n).length = n := List.length_take_of_le (Nat.le_of_lt hn)
    have hfront : ∀ k, bs.take n ≠ (parts.take k).flatten :=
      fun k hk => hwithin k (by rw [← hk, hlength])
    obtain ⟨e, ⟨needed, left, rfl⟩, he⟩ :=
      hparts.run_isEof hread.inOrder (Nat.le_refl _) (c := Cursor.start (bs.take n))
        (Nat.lt_succ_self _) ((List.take_append_drop n bs).trans hflatten.symm) hfront
    exact ⟨needed, left, he⟩

/-- The octets of a transaction type and of a memo. -/
def typedMemo : List Bytes :=
  [[0x12, 0, 0], [0xEA, 0x7D, 1, 0xAB, 0xE1]]

/-- Of `typedMemo`, the memo that is cut off is not read, but the transaction type in
front of it is. -/
theorem decode_cut_typedMemo :
    ∃ o, decode typedMemo.flatten = .ok o ∧
      decode (typedMemo.flatten.take 3) = .ok (o.take 1) ∧
      ∃ needed left, decode (typedMemo.flatten.take 6) =
      .error (.unexpectedEof needed left) := by
  obtain ⟨o, ho⟩ : ∃ o, decode typedMemo.flatten = .ok o := ⟨_, rfl⟩
  have hparts : Parts o typedMemo := by
    cases ho
    exact .cons rfl (.cons rfl .nil)
  obtain ⟨-, hcut⟩ := decode_cut ho
  refine ⟨o, ho, (hcut typedMemo hparts rfl 3 (by decide)).1 1 rfl,
    (hcut typedMemo hparts rfl 6 (by decide)).2 fun k => ?_⟩
  match k with
  | 0 => decide
  | 1 => decide
  | k + 2 => simp [typedMemo]

end Object

end XrpLedger
