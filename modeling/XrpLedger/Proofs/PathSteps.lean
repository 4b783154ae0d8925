import XrpLedger.Proofs.Writability

/-!
# Path steps without members

A step of a payment path has an account, a currency or an issuer. Steps that are read from
octets do. A step that is read from JSON has the members that its JSON value names, and if
this names none of the three, or is no JSON object at all, the step is made without
members. No tree with such a step can be written.

- `Object.Stepped`: all path steps of the tree have members.
- `Object.stepped_of_decode`: those of octets.
- `Json.NamesStep`, `Json.ObjectNamesSteps`: what JSON must name for its steps to have
  members.
- `Object.stepped_ofJson_iff`: those of JSON.
- `Object.WellFormed.stepped_of_encode`: only trees with such steps are written.
- `Object.stepped_iff_named`: the three together.
- `Object.ofJson_unstepped`: a step that is read without members.
-/

namespace XrpLedger

/-! ## Steps of a tree -/

/-- All steps of the value have members, if it is a path set. -/
def Value.IsSteppedScalar : Value → Prop
  | .scalar (.pathSet paths) => ∀ p ∈ paths, ∀ s ∈ p, s.HasMember
  | _ => True

/-- All path steps of the value and inside it have members. -/
def Value.Stepped (v : Value) : Prop :=
  v.IsSteppedScalar ∧ v.Each (fun _ w => w.IsSteppedScalar) fun _ => True

/-- All path steps of the tree have members, at every level. -/
def Object.Stepped (o : Object) : Prop :=
  Object.Each (fun _ w => w.IsSteppedScalar) (fun _ => True) o

/-- All path steps inside the elements have members. -/
def Elements.Stepped (es : Elements) : Prop :=
  Elements.Each (fun _ w => w.IsSteppedScalar) (fun _ => True) es

/-- An object is `Stepped` if its values are. -/
theorem Object.stepped_forall {o : Object} : Stepped o ↔ ∀ field ∈ o, field.2.Stepped :=
  each_iff

theorem Elements.stepped_cons {id : FieldId} {o : Object} {rest : Elements} :
    Elements.Stepped ((id, o) :: rest) ↔ Object.Stepped o ∧ Elements.Stepped rest := by
  simp only [Elements.Stepped, Object.Stepped, Elements.Each, true_and]

/-! ## Steps of octets -/

/-- The steps of what `decode` reads from octets have members: the tree is `Stepped`. -/
theorem Object.stepped_of_decode {bs : Bytes} {o : Object} (h : decode bs = .ok o) :
    Stepped o := by
  refine each_of_spells ⟨?_, fun _ => trivial, fun _ => trivial⟩
    (decode_eq_ok.mp h).spells
  intro s u hs
  cases s with
  | pathSet paths =>
    obtain ⟨p, rest, -, hstepped, -⟩ := hs
    exact fun p hp s hs => not_not.mp
      (mt PathStep.bits_eq_zero_iff.mpr (hstepped p hp s hs))
  | _ => trivial

/-! ## Steps of JSON -/

namespace Json

/-- The value has a member that a path step is made of. -/
def NamesStep (j : Json) : Prop :=
  (j.get? "account").isSome ∨ (j.get? "currency").isSome ∨ (j.get? "issuer").isSome

instance (j : Json) : Decidable j.NamesStep :=
  inferInstanceAs (Decidable (_ ∨ _))

/-- The value is no array, or all its items have the property. -/
def EachItem (P : Json → Prop) : Json → Prop
  | .array items => ∀ item ∈ items, P item
  | _ => True

mutual

/-- All that stands for a path step in the value of a field, at every level, names a
member of one. -/
def NamesSteps (id : FieldId) (j : Json) : Prop :=
  match id.kind?, j with
  | some .pathSet, j => j.EachItem fun path => path.EachItem NamesStep
  | some .object, .object members => MembersNameSteps members
  | some .array, .array items => ItemsNameSteps items
  | _, _ => True

/-- All that stands for a path step in an object, at every level, names a member
of one. -/
def ObjectNamesSteps (j : Json) : Prop :=
  match j with
  | .object members => MembersNameSteps members
  | _ => True

/-- All that stands for a path step in the members of an object names a member of one. A
member that is followed by another of the same field does not count. -/
def MembersNameSteps : List (String × Json) → Prop
  | [] => True
  | (name, j) :: rest =>
    (∀ id, FieldId.ofName name = .ok id →
      (∀ later ∈ rest, FieldId.ofName later.1 ≠ .ok id) →
      NamesSteps id j) ∧ MembersNameSteps rest

/-- All that stands for a path step in the items of an array names a member of one. -/
def ItemsNameSteps : List Json → Prop
  | [] => True
  | .object [(_, j)] :: rest => ObjectNamesSteps j ∧ ItemsNameSteps rest
  | _ :: rest => ItemsNameSteps rest

end

end Json

section

variable {id : FieldId} {j : Json}

/-- A member that `memberOf` reads is there if it is named. -/
theorem FieldId.isSome_of_memberOf {α : Type} {parse : String → Except CodecError α}
    {member : Option Json} {a : Option α} (h : id.memberOf parse member = .ok a) :
    a.isSome ↔ member.isSome := by
  cases member with
  | none =>
    cases h
    rfl
  | some j =>
    rw [memberOf] at h
    split at h
    · cases h
      rfl
    · cases h

/-- A step that `PathStep.ofJson` reads has the members that `NamesStep` asks for. -/
theorem PathStep.hasMember_ofJson_iff {s : PathStep} (h : PathStep.ofJson id j = .ok s) :
    s.HasMember ↔ j.NamesStep := by
  unfold PathStep.ofJson at h
  split at h
  · cases h
  rename_i account haccount
  split at h
  · cases h
  rename_i currency hcurrency
  split at h
  · cases h
  rename_i issuer hissuer
  cases h
  exact or_congr (FieldId.isSome_of_memberOf haccount)
    (or_congr (FieldId.isSome_of_memberOf hcurrency) (FieldId.isSome_of_memberOf hissuer))

/-- What `listOf` reads of the items of an array has a property exactly if the items have
one that goes with it. -/
theorem FieldId.forall_listOf_iff {α : Type} {read : Json → Except CodecError α}
    {P : α → Prop}
    {Q : Json → Prop} (hread : ∀ {item a}, read item = .ok a → (P a ↔ Q item))
    {as : List α} (h : id.listOf read j = .ok as) : (∀ a ∈ as, P a) ↔ j.EachItem Q := by
  unfold listOf at h
  split at h
  · next items =>
    show _ ↔ ∀ item ∈ items, Q item
    have hitems := mapM_eq_ok.mp h
    clear h
    induction hitems with
    | nil => simp
    | cons hitem _ ih =>
      rw [List.forall_mem_cons, List.forall_mem_cons]
      exact and_congr (hread hitem) ih
  · cases h

end

namespace Object

variable {o o' : Object} {id : FieldId} {v : Value}

/-- What all fields have after one was set is what that one has, and all others had. -/
theorem Ascending.forall_insert_iff {P : FieldId × Value → Prop} (ho : Ascending o) :
    (∀ field ∈ insert id v o, P field) ↔
    P (id, v) ∧ ∀ field ∈ o, field.1 ≠ id → P field := by
  have hmem : ∀ i w, (i, w) ∈ insert id v o ↔ if id = i then v = w else (i, w) ∈ o := by
    intro i w
    rw [(ascending_insert ho id v).mem_iff, get?_insert, ho.mem_iff]
    split
    · exact Option.some_inj
    · rfl
  constructor
  · intro h
    refine ⟨h _ ((hmem id v).mpr (by simp)), fun field hfield hne =>
      h _ ((hmem _ _).mpr ?_)⟩
    rwa [if_neg (Ne.symm hne)]
  · rintro ⟨hv, hothers⟩ ⟨i, w⟩ hfield
    have h := (hmem i w).mp hfield
    split at h
    · next hid =>
      rwa [← hid, ← h]
    · next hid => exact hothers (i, w) h (Ne.symm hid)

end Object

theorem Scalar.stepped_ofJson_iff {id : FieldId} {kind : FieldKind}
    {j : Json} {s : Scalar}
    (hkind : id.kind? = some kind) (h : Scalar.ofJson id kind j = .ok s) :
    (Value.scalar s).IsSteppedScalar ↔ j.NamesSteps id := by
  unfold Json.NamesSteps
  rw [hkind]
  cases kind with
  | pathSet =>
    obtain ⟨paths, hpaths, rfl⟩ := exists_of_map_eq_ok h
    exact id.forall_listOf_iff (id.forall_listOf_iff PathStep.hasMember_ofJson_iff) hpaths
  | object => cases h
  | array => cases h
  | _ =>
    obtain ⟨a, -, rfl⟩ := exists_of_map_eq_ok h
    exact Iff.rfl

mutual

theorem Value.stepped_ofJson_iff {id : FieldId} {j : Json} {v : Value}
    (h : Value.ofJson id j = .ok v) : v.Stepped ↔ j.NamesSteps id := by
  unfold Value.ofJson at h
  split at h
  · cases h
  · next members hkind =>
    split at h
    · next o ho =>
      cases h
      unfold Json.NamesSteps
      rw [hkind]
      exact (and_iff_right trivial).trans
        ((Object.stepped_ofMembers_iff Object.ascending_nil ho).trans
          (and_iff_right (by simp)))
    · cases h
  · next items hkind =>
    split at h
    · next es hes =>
      cases h
      unfold Json.NamesSteps
      rw [hkind]
      exact (and_iff_right trivial).trans (Elements.stepped_ofItems_iff hes)
    · cases h
  · next kind hkind _ _ =>
    split at h
    · next s hs =>
      cases h
      exact (and_iff_left trivial).trans (Scalar.stepped_ofJson_iff hkind hs)
    · cases h
  termination_by sizeOf j

/-- The steps of a tree that `ofJson` reads have members exactly if these are named, by
`ObjectNamesSteps`. -/
theorem Object.stepped_ofJson_iff {j : Json} {o : Object} (h : Object.ofJson j = .ok o) :
    Object.Stepped o ↔ j.ObjectNamesSteps := by
  unfold Object.ofJson at h
  split at h
  · next members =>
    rw [Json.ObjectNamesSteps]
    exact (Object.stepped_ofMembers_iff Object.ascending_nil h).trans
      (and_iff_right (by simp))
  · cases h
  termination_by sizeOf j

/-- The members are set one after the other, on top of the fields that are there. A step
counts if its field is not set again, by a later member. -/
theorem Object.stepped_ofMembers_iff {members : List (String × Json)} {o o' : Object}
    (ho : Object.Ascending o) (h : Object.ofMembers o members = .ok o') :
    Object.Stepped o' ↔ (∀ field ∈ o, (∀ m ∈ members, FieldId.ofName m.1 ≠ .ok field.1) →
      field.2.Stepped) ∧ Json.MembersNameSteps members := by
  unfold Object.ofMembers at h
  split at h
  · cases h
    rw [Object.stepped_forall, Json.MembersNameSteps]
    simp
  rename_i name j rest
  split at h
  · cases h
  rename_i id hname
  split at h
  · cases h
  rename_i v hv
  split at h
  · cases h
  rename_i old o₁ hput
  obtain ⟨-, -, rfl⟩ := Object.put_eq_ok.mp hput
  have hvalue := Value.stepped_ofJson_iff hv
  have hrest := Object.stepped_ofMembers_iff (Object.ascending_insert ho id v) h
  -- what is there before the first member stays if no member names its field
  have hkept : ∀ field : FieldId × Value,
      (∀ m ∈ (name, j) :: rest, FieldId.ofName m.1 ≠ .ok field.1) ↔
        field.1 ≠ id ∧ ∀ m ∈ rest, FieldId.ofName m.1 ≠ .ok field.1 := by
    intro field
    rw [List.forall_mem_cons, hname, ne_eq, Except.ok.injEq, eq_comm]
  simp only [Json.MembersNameSteps, hname, Except.ok.injEq, forall_eq', hkept, and_imp]
  rw [hrest, ho.forall_insert_iff, hvalue]
  exact (and_congr_left' and_comm).trans and_assoc
  termination_by sizeOf members

theorem Elements.stepped_ofItems_iff {id : FieldId} {items : List Json} {es : Elements}
    (h : Elements.ofItems id items = .ok es) :
    Elements.Stepped es ↔ Json.ItemsNameSteps items := by
  unfold Elements.ofItems at h
  split at h
  · cases h
    rw [Json.ItemsNameSteps]
    exact Iff.rfl
  · next name j rest =>
    split at h
    · cases h
    rename_i inner hname
    split at h
    · split at h
      · cases h
      rename_i o ho
      split at h
      · cases h
      rename_i es' hes
      cases h
      rw [Elements.stepped_cons, Json.ItemsNameSteps, Object.stepped_ofJson_iff ho,
        Elements.stepped_ofItems_iff hes]
    · cases h
  · cases h
  termination_by sizeOf items

end

/-! ## Trees that are written -/

namespace Object

variable {o : Object} {bs : Bytes}

theorem stepped_of_writable (h : Writable o) : Stepped o := by
  refine h.mono (fun id v hfield => ?_) fun _ _ => trivial
  rcases v with s | p | es
  · cases s with
    | pathSet paths => exact hfield.2
    | _ => trivial
  · trivial
  · trivial

/-- A tree that is written has no step without members. -/
theorem WellFormed.stepped_of_encode (ho : WellFormed o) (h : encode o = .ok bs) :
    Stepped o :=
  stepped_of_writable (ho.settles_encode.ok_iff.mp ⟨bs, h⟩)

/-- The path steps of a tree from octets have members. Those of a tree from JSON have
members exactly if each value that stands for a step, at any level, names an account, a
currency or an issuer. If one does not, the tree is made all the same, and it cannot be
written. -/
theorem stepped_iff_named (bs : Bytes) (j : Json) (o : Object) :
    (decode bs = .ok o → Stepped o) ∧
    (ofJson j = .ok o → (Stepped o ↔ j.ObjectNamesSteps) ∧
      (¬ Stepped o → ∃ e, encode o = .error e)) := by
  refine ⟨stepped_of_decode, fun h => ⟨stepped_ofJson_iff h, fun hunstepped => ?_⟩⟩
  cases hencode : encode o with
  | ok bs => exact absurd ((wellFormed_ofJson h).stepped_of_encode hencode) hunstepped
  | error e => exact ⟨e, rfl⟩

/-- A step that names nothing is read, and refused when it is to be written. -/
theorem ofJson_unstepped :
    ∃ o, ofJson (.object [("Paths", .array [.array [.object []]])]) = .ok o ∧
    ¬ Stepped o ∧
      encode o = .error (.invalidAmount .emptyPathStep) := by
  refine ⟨[(⟨18, 1⟩, .scalar (.pathSet [[⟨none, none, none⟩]]))], rfl,
    fun hstepped => ?_, rfl⟩
  have hmember : PathStep.HasMember ⟨none, none, none⟩ :=
    hstepped.1 _ (List.mem_singleton_self _) _ (List.mem_singleton_self _)
  revert hmember
  decide

end Object

end XrpLedger
