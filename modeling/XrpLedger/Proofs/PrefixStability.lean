import XrpLedger.Proofs.Headers

/-!
# More octets behind the cursor

A read looks at no octet that it does not take. What it yields and what it refuses stays
the same when more octets are put behind those at the cursor, unless it came to the end of
them, and then it fails for want of octets. Reads that count their rounds may be given
more of them as well.

- `CodecError.IsEof`: the failure for want of octets.
- `Read.ExtendsTo`: with more octets, one read ends as another one did with fewer.
- `ExtendsTo.bind`: the parts of a sequence may be looked at one by one.
- `Read.extendsTo_valueAt`: every value of a field is read in this way.
- `ExtendsTo.isEof`: a read fails for want of octets if it would take more than there are.
-/

namespace XrpLedger

/-- The failure is the want of octets. -/
def CodecError.IsEof (e : CodecError) : Prop :=
  ∃ needed left, e = .unexpectedEof needed left

/-- The same place, with more octets behind those that are left. -/
def Cursor.extend (c : Cursor) (w : Bytes) : Cursor :=
  { c with rest := c.rest ++ w }

theorem Cursor.extend_nested (c : Cursor) (w : Bytes) :
    { c.extend w with depth := c.depth + 1 } = { c with depth := c.depth + 1 }.extend w :=
    rfl

namespace Read

variable {α β : Type}

/-- With more octets behind the cursor, `m'` ends as `m` does with fewer, unless `m` fails
for want of octets. -/
def ExtendsTo (m m' : Read α) : Prop :=
  ∀ c w, (∃ e, e.IsEof ∧ (m c).1 = .error e) ∨
    m' (c.extend w) = ((m c).1, (m c).2.extend w)

theorem extendsTo_pure (a : α) : ExtendsTo (pure a) (pure a) :=
  fun _ _ => .inr rfl

theorem extendsTo_lift (r : Except CodecError α) : ExtendsTo (lift r) (lift r) :=
  fun _ _ => .inr rfl

theorem extendsTo_fail (e : CodecError) : ExtendsTo (fail e : Read α) (fail e) :=
  fun _ _ => .inr rfl

/-- A read that fails for want of octets has no share in what happens with more of them,
so anything extends it. -/
theorem extendsTo_fail_eof (needed left : Nat) (m : Read α) :
    ExtendsTo (fail (.unexpectedEof needed left)) m :=
  fun _ _ => .inl ⟨_, ⟨needed, left, rfl⟩, rfl⟩

/-- A sequence extends another by `ExtendsTo` part by part. -/
theorem ExtendsTo.bind {m m' : Read α} {f f' : α → Read β} (hm : m.ExtendsTo m')
    (hf : ∀ a, (f a).ExtendsTo (f' a)) : (m >>= f).ExtendsTo (m' >>= f') := by
  intro c w
  have hfirst := hm c w
  rw [bind_apply]
  cases hmc : m c with
  | mk r c₁ =>
    rw [hmc] at hfirst
    cases r with
    | error e =>
      rcases hfirst with ⟨e', he', h⟩ | h
      · cases h
        exact .inl ⟨e, he', rfl⟩
      · exact .inr (bind_error h f')
    | ok a =>
      rcases hfirst with ⟨e', -, h⟩ | h
      · cases h
      · rcases hf a c₁ w with heof | hsame
        · exact .inl heof
        · refine .inr ?_
          rw [bind_ok h]
          exact hsame

theorem ExtendsTo.ite {p : Prop} [Decidable p] {m m' k k' : Read α} (hm : m.ExtendsTo m')
    (hk : k.ExtendsTo k') : (if p then m else k).ExtendsTo (if p then m' else k') := by
  by_cases hp : p
  · rw [if_pos hp, if_pos hp]
    exact hm
  · rw [if_neg hp, if_neg hp]
    exact hk

theorem ExtendsTo.map {m m' : Read α} (hm : m.ExtendsTo m') (g : α → β) :
    (m >>= fun a => pure (g a)).ExtendsTo (m' >>= fun a => pure (g a)) :=
  hm.bind fun a => extendsTo_pure (g a)

theorem ExtendsTo.bind_lift {m m' : Read α} (hm : m.ExtendsTo m')
    (g : α → Except CodecError β) :
    (m >>= fun a => lift (g a)).ExtendsTo (m' >>= fun a => lift (g a)) :=
  hm.bind fun a => extendsTo_lift (g a)

/-- What a read takes with more octets behind the cursor, it misses without them: it fails
for want of octets by `IsEof`. -/
theorem ExtendsTo.isEof {m m' : Read α} (hm : m.ExtendsTo m') {c c' : Cursor}
    {w : Bytes} {a : α}
    (h : m' (c.extend w) = (.ok a, c')) (hw : c'.rest.length < w.length) :
    ∃ e, e.IsEof ∧ (m c).1 = .error e := by
  rcases hm c w with heof | hsame
  · exact heof
  · -- otherwise all the octets put behind would still be left
    rw [h] at hsame
    have hrest : c'.rest = (m c).2.rest ++ w := by
      have := congrArg (fun r => r.2.rest) hsame
      exact this
    rw [hrest, List.length_append] at hw
    omega

/-! ## Octets -/

theorem extendsTo_peek : ExtendsTo peek peek := by
  intro c w
  cases hrest : c.rest with
  | nil => exact .inl ⟨_, ⟨1, 0, rfl⟩, by simp [peek, hrest]⟩
  | cons b bs => exact .inr (by simp [peek, Cursor.extend, hrest])

/-- Either the octets are there, or `take` fails for want of them. -/
theorem extendsTo_take (n : Nat) : ExtendsTo (take n) (take n) := by
  intro c w
  simp only [take, List.splitAt_eq, Cursor.extend, List.length_take, List.length_append]
  by_cases hn : n ≤ c.rest.length
  · have hfew : ¬ min n c.rest.length < n := by omega
    have hmore : ¬ min n (c.rest.length + w.length) < n := by omega
    rw [if_neg hfew, if_neg hmore, List.take_append_of_le_length hn,
      List.drop_append_of_le_length hn]
    exact .inr rfl
  · have hfew : min n c.rest.length < n := by omega
    rw [if_pos hfew]
    exact .inl ⟨_, ⟨n, c.rest.length, rfl⟩, rfl⟩

/-- A decoder whose outcome no octets behind can change makes a read `decoded` that
`ExtendsTo` itself. -/
theorem extendsTo_decoded {decode : Bytes → Except CodecError (α × Nat)}
    (hle : ∀ bs a k, decode bs = .ok (a, k) → k ≤ bs.length)
    (happend : ∀ bs w, (∃ e, e.IsEof ∧ decode bs = .error e) ∨
      decode (bs ++ w) = decode bs) :
    ExtendsTo (decoded decode) (decoded decode) := by
  intro c w
  unfold decoded
  rcases happend c.rest w with ⟨e, he, h⟩ | hsame
  · rw [h]
    exact .inl ⟨e, he, rfl⟩
  · refine .inr ?_
    rw [Cursor.extend, hsame]
    cases hdecode : decode c.rest with
    | error e => rfl
    | ok found =>
      obtain ⟨a, k⟩ := found
      simp only [Cursor.advance]
      rw [List.drop_append_of_le_length (hle _ _ _ hdecode)]
      rfl

theorem extendsTo_number (width : Nat) : ExtendsTo (number width) (number width) :=
  (extendsTo_take width).map Bytes.toNat

theorem extendsTo_uint8 : ExtendsTo uint8 uint8 := (extendsTo_number 1).map UInt8.ofNat

theorem extendsTo_uint16 : ExtendsTo uint16 uint16 :=
  (extendsTo_number 2).map UInt16.ofNat

theorem extendsTo_uint32 : ExtendsTo uint32 uint32 :=
  (extendsTo_number 4).map UInt32.ofNat

theorem extendsTo_uint64 : ExtendsTo uint64 uint64 :=
  (extendsTo_number 8).map UInt64.ofNat

theorem extendsTo_fixed (n : Nat) : ExtendsTo (fixed n) (fixed n) :=
  (extendsTo_take n).bind_lift (FixedBytes.ofBytes n)

/-! ## Headers and payloads -/

end Read

/-- Whether a header is right can be told by `decode` from its own octets. -/
theorem FieldId.decode_append_eq (bs w : Bytes) :
    (∃ e : CodecError, e.IsEof ∧ decode bs = .error e) ∨
    decode (bs ++ w) = decode bs := by
  cases bs with
  | nil => exact .inl ⟨_, ⟨1, 0, rfl⟩, rfl⟩
  | cons first rest =>
    simp only [decode, List.cons_append]
    split
    · split
      · -- two more octets are needed
        rcases rest with _ | ⟨_, _ | ⟨_, _⟩⟩
        · exact .inl ⟨_, ⟨3, 1, rfl⟩, rfl⟩
        · exact .inl ⟨_, ⟨3, 2, rfl⟩, rfl⟩
        · exact .inr rfl
      · -- one more is needed
        cases rest with
        | nil => exact .inl ⟨_, ⟨2, 1, rfl⟩, rfl⟩
        | cons => exact .inr rfl
    · split
      · cases rest with
        | nil => exact .inl ⟨_, ⟨2, 1, rfl⟩, rfl⟩
        | cons => exact .inr rfl
      · exact .inr rfl

/-- Whether a length is right can be told by `decode` from its own octets. -/
theorem Length.decode_append_eq (bs w : Bytes) :
    (∃ e : CodecError, e.IsEof ∧ decode bs = .error e) ∨
    decode (bs ++ w) = decode bs := by
  cases bs with
  | nil => exact .inl ⟨_, ⟨1, 0, rfl⟩, rfl⟩
  | cons first rest =>
    simp only [decode, List.cons_append]
    split
    · exact .inr rfl
    · split
      · cases rest with
        | nil => exact .inl ⟨_, ⟨2, 1, rfl⟩, rfl⟩
        | cons => exact .inr rfl
      · split
        · rcases rest with _ | ⟨_, _ | ⟨_, _⟩⟩
          · exact .inl ⟨_, ⟨2, 1, rfl⟩, rfl⟩
          · exact .inl ⟨_, ⟨3, 2, rfl⟩, rfl⟩
          · exact .inr rfl
        · exact .inr rfl

namespace Read

variable {α : Type}

theorem extendsTo_header :
    ExtendsTo (decoded FieldId.decode) (decoded FieldId.decode) := by
  refine extendsTo_decoded (fun bs id k h => ?_) FieldId.decode_append_eq
  obtain ⟨u, w, -, rfl, rfl⟩ := FieldId.encode_of_decode h
  simp

theorem extendsTo_length : ExtendsTo length length := by
  refine extendsTo_decoded (fun bs n k h => ?_) Length.decode_append_eq
  obtain ⟨w, -, rfl, rfl⟩ := Length.encode_of_decode h
  simp

theorem fieldId?_of_ne_nil {c : Cursor} (h : c.rest ≠ []) :
    fieldId? c = (decoded FieldId.decode >>= fun id => pure (some id)) c := by
  unfold fieldId?
  cases hrest : c.rest with
  | nil => exact absurd hrest h
  | cons b bs => rfl

/-- A field header is decoded by `fieldId` from the octets at the cursor, of which there
are some. -/
theorem fieldId_apply (c : Cursor) :
    fieldId c = if c.rest = [] then (.error (.unexpectedEof 1 0), c)
      else decoded FieldId.decode c := by
  unfold fieldId
  by_cases hrest : c.rest = []
  · have hnone : fieldId? c = (.ok none, c) := by simp [fieldId?, hrest]
    rw [bind_ok hnone, if_pos hrest]
    rfl
  · rw [if_neg hrest, bind_apply, fieldId?_of_ne_nil hrest, bind_apply]
    cases decoded FieldId.decode c with
    | mk r c' => cases r <;> rfl

theorem extendsTo_fieldId : ExtendsTo fieldId fieldId := by
  intro c w
  rw [fieldId_apply, fieldId_apply]
  by_cases hrest : c.rest = []
  · rw [if_pos hrest]
    exact .inl ⟨_, ⟨1, 0, rfl⟩, rfl⟩
  · have hextended : (c.extend w).rest ≠ [] := by simp [Cursor.extend, hrest]
    rw [if_neg hrest, if_neg hextended]
    exact extendsTo_header c w

theorem extendsTo_payload : ExtendsTo payload payload :=
  extendsTo_length.bind extendsTo_take

theorem extendsTo_accountId : ExtendsTo accountId accountId :=
  extendsTo_payload.bind_lift AccountId.ofBytes

/-! ## Scalars -/

theorem extendsTo_bareAccountId : ExtendsTo bareAccountId bareAccountId :=
  (extendsTo_take 20).bind_lift AccountId.ofBytes

theorem extendsTo_currencyCode : ExtendsTo currencyCode currencyCode :=
  (extendsTo_take 20).bind_lift CurrencyCode.ofBytes

theorem extendsTo_drops : ExtendsTo drops drops :=
  extendsTo_uint64.bind_lift Drops.ofWord

theorem extendsTo_issuedAmount : ExtendsTo issuedAmount issuedAmount :=
  extendsTo_uint64.bind fun word =>
    (extendsTo_lift (IssuedValue.ofWord word)).bind fun value =>
    extendsTo_currencyCode.bind fun currency =>
      extendsTo_bareAccountId.bind_lift fun issuer =>
        IssuedAmount.make value currency issuer

theorem extendsTo_amount : ExtendsTo amount amount :=
  extendsTo_peek.bind fun _ =>
    (extendsTo_drops.map Amount.native).ite (extendsTo_issuedAmount.map Amount.issued)

theorem extendsTo_member (bits bit : UInt8) {m : Read α} (hm : m.ExtendsTo m) :
    ExtendsTo (member bits bit m) (member bits bit m) :=
  (extendsTo_pure none).ite (hm.map some)

theorem extendsTo_pathStep (bits : UInt8) : ExtendsTo (pathStep bits) (pathStep bits) :=
  (extendsTo_fail _).ite <|
    (extendsTo_member bits _ extendsTo_bareAccountId).bind fun account =>
      (extendsTo_member bits _ extendsTo_currencyCode).bind fun currency =>
        (extendsTo_member bits _ extendsTo_bareAccountId).map fun issuer =>
          PathStep.mk account currency issuer

theorem extendsTo_paths {rounds rounds' : Nat} (h : rounds ≤ rounds') :
    ExtendsTo (paths rounds) (paths rounds') := by
  induction rounds generalizing rounds' with
  | zero => exact extendsTo_fail_eof 1 0 _
  | succ rounds ih =>
    -- the round in front is the same, and those behind it extend by induction
    obtain ⟨more, rfl⟩ : ∃ more, rounds' = more + 1 := ⟨rounds' - 1, by omega⟩
    have hpaths := ih (Nat.le_of_succ_le_succ h)
    exact extendsTo_uint8.bind fun bits => (extendsTo_pure _).ite <| (hpaths.map _).ite <|
      (extendsTo_pathStep bits).bind fun step => hpaths.map _

theorem extendsTo_pathSet {rounds rounds' : Nat} (h : rounds ≤ rounds') :
    ExtendsTo (pathSet rounds) (pathSet rounds') :=
  (extendsTo_paths h).map fun more => more.1 :: more.2

theorem extendsTo_vector256 : ExtendsTo vector256 vector256 :=
  extendsTo_payload.bind fun _ => (extendsTo_lift _).ite (extendsTo_fail _)

/-! ## Objects and arrays -/

/-- What is read one level further in may be extended there. -/
theorem ExtendsTo.nested {m m' : Read α} (hm : m.ExtendsTo m') :
    (nested m).ExtendsTo (Read.nested m') := by
  intro c w
  unfold Read.nested
  rcases hm { c with depth := c.depth + 1 } w with heof | hsame
  · exact .inl heof
  · refine .inr ?_
    have hdepth : (c.extend w).depth = c.depth := rfl
    rw [hdepth, Cursor.extend_nested, hsame]
    rfl

/-- A `run` that ends with a marker goes on from header to header. -/
theorem run_some_succ (value : FieldId → Read Value) (e : FieldId) (rounds : Nat)
    (previous : Option FieldId) :
    run value (some e) (rounds + 1) previous =
      fieldId >>= fun id =>
        if some id = some e then pure []
        else
          lift (FieldId.checkAfter previous id) >>= fun _ =>
            value id >>= fun v =>
              run value (some e) rounds (some id) >>= fun rest =>
                pure ((id, v) :: rest) := by
  funext c
  rw [run, bind_apply, bind_apply, fieldId, bind_apply]
  cases fieldId? c with
  | mk r c' =>
    match r with
    | .error e => rfl
    | .ok none => rfl
    | .ok (some id) => rfl

/-- A `run` that ends with a marker may be given more rounds. -/
theorem extendsTo_run {value value' : FieldId → Read Value}
    (hvalue : ∀ id, (value id).ExtendsTo (value' id)) (e : FieldId) {rounds rounds' : Nat}
    (h : rounds ≤ rounds') (previous : Option FieldId) :
    ExtendsTo (run value (some e) rounds previous)
      (run value' (some e) rounds' previous) := by
  induction rounds generalizing rounds' previous with
  | zero => exact extendsTo_fail_eof 1 0 _
  | succ rounds ih =>
    -- one field more, and then the rest of the run
    obtain ⟨more, rfl⟩ : ∃ more, rounds' = more + 1 := ⟨rounds' - 1, by omega⟩
    rw [run_some_succ, run_some_succ]
    exact extendsTo_fieldId.bind fun id => (extendsTo_pure []).ite <|
      (extendsTo_lift _).bind fun _ => (hvalue id).bind fun v =>
        (ih (Nat.le_of_succ_le_succ h) (some id)).map _

/-- The `elements` of an array may be given more rounds too. -/
theorem extendsTo_elements {object object' : Read Object}
    (hobject : object.ExtendsTo object') {rounds rounds' : Nat} (h : rounds ≤ rounds') :
    ExtendsTo (elements object rounds) (elements object' rounds') := by
  induction rounds generalizing rounds' with
  | zero => exact extendsTo_fail_eof 1 0 _
  | succ rounds ih =>
    obtain ⟨more, rfl⟩ : ∃ more, rounds' = more + 1 := ⟨rounds' - 1, by omega⟩
    exact extendsTo_fieldId.bind fun id =>
      (extendsTo_pure []).ite <| (extendsTo_fail _).ite <|
      hobject.bind fun o => (ih (Nat.le_of_succ_le_succ h)).map _

theorem extendsTo_valueWith {object object' : Read Object} {array array' : Read Elements}
    (hobject : object.ExtendsTo object') (harray : array.ExtendsTo array')
    {rounds rounds' : Nat} (h : rounds ≤ rounds') (id : FieldId) :
    ExtendsTo (valueWith object array rounds id)
      (valueWith object' array' rounds' id) := by
  unfold valueWith
  refine (extendsTo_fail _).ite ?_
  cases id.kind? with
  | none => exact extendsTo_fail _
  | some kind =>
    cases kind with
    | uint8 => exact extendsTo_uint8.map _
    | uint16 => exact extendsTo_uint16.map _
    | uint32 => exact extendsTo_uint32.map _
    | uint64 => exact extendsTo_uint64.map _
    | hash128 => exact (extendsTo_fixed 16).map _
    | hash160 => exact (extendsTo_fixed 20).map _
    | hash256 => exact (extendsTo_fixed 32).map _
    | amount => exact extendsTo_amount.map _
    | blob => exact extendsTo_payload.map _
    | accountId => exact extendsTo_accountId.map _
    | pathSet => exact (extendsTo_pathSet h).map _
    | vector256 => exact extendsTo_vector256.map _
    | object => exact hobject.map _
    | array => exact harray.map _

theorem extendsTo_at {rounds rounds' : Nat} (h : rounds ≤ rounds') :
    ∀ levels, (objectAt rounds levels).ExtendsTo (objectAt rounds' levels) ∧
      (arrayAt rounds levels).ExtendsTo (arrayAt rounds' levels)
  | 0 => by
    rw [objectAt, objectAt, arrayAt, arrayAt]
    exact ⟨extendsTo_fail _, extendsTo_fail _⟩
  | levels + 1 => by
    obtain ⟨hobject, harray⟩ := extendsTo_at h levels
    rw [objectAt, objectAt, arrayAt, arrayAt]
    exact ⟨(extendsTo_run (extendsTo_valueWith hobject harray h) _ h none).nested,
      (extendsTo_elements hobject h).nested⟩

/-- The value of a field is read by `valueAt` without a look at the octets behind it. -/
theorem extendsTo_valueAt {rounds rounds' : Nat} (h : rounds ≤ rounds') (levels : Nat)
    (id : FieldId) :
    ExtendsTo (valueAt rounds levels id) (valueAt rounds' levels id) :=
  extendsTo_valueWith (extendsTo_at h levels).1 (extendsTo_at h levels).2 h id

end Read

end XrpLedger
