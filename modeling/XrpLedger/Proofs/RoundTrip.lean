import XrpLedger.Proofs.Layout

/-!
# Reading what was written

An object that was written is read back if none of its identities is an end marker and it
is not nested too deep. What is read is the object with an empty path in each path set
that has none.

- `Object.isNormal_of_decode`, `Object.hasNoEmptyPathSet_of_decode`: what is read has
  normal amounts and no empty path set.
- `Object.decode_filled`: the objects that are read back.
- `Object.decode_encoded`: which objects are read back, and as what.
- `Object.Canonical`: the objects that can be read, which are read back as themselves.
-/

namespace XrpLedger

/-! ## Scalars of a spelled tree -/

section

variable {P : Value → Prop}

/-- All values that occur in a spelling have a property that every scalar with a spelling
has. -/
structure SpelledHave (P : Value → Prop) : Prop where
  scalar : ∀ {s u}, Scalar.Spells s u → P (.scalar s)
  object : ∀ o, P (.object o)
  array : ∀ es, P (.array es)

mutual

theorem Value.each_of_spells (hP : SpelledHave P) :
    ∀ {v : Value} {u : Bytes}, v.Spells u → P v ∧ v.Each (fun _ w => P w) fun _ => True
  | .scalar _, _, h => ⟨hP.scalar h, trivial⟩
  | .object _, _, ⟨_, h, _⟩ => ⟨hP.object _, Object.each_of_spells hP h⟩
  | .array _, _, ⟨_, h, _⟩ => ⟨hP.array _, Elements.each_of_spells hP h⟩

/-- A property that is had by `SpelledHave` is had by every value inside a
spelled object. -/
theorem Object.each_of_spells (hP : SpelledHave P) :
    ∀ {o : Object} {u : Bytes}, Object.Spells o u →
    Object.Each (fun _ w => P w) (fun _ => True) o
  | [], _, _ => trivial
  | (_, _) :: _, _, ⟨_, _, _, _, _, hv, hrest, _⟩ =>
    ⟨(Value.each_of_spells hP hv).1, (Value.each_of_spells hP hv).2,
      Object.each_of_spells hP hrest⟩

theorem Elements.each_of_spells (hP : SpelledHave P) :
    ∀ {es : Elements} {u : Bytes}, Elements.Spells es u →
      Elements.Each (fun _ w => P w) (fun _ => True) es
  | [], _, _ => trivial
  | (_, _) :: _, _, ⟨_, _, _, _, _, ho, hrest, _⟩ =>
    ⟨trivial, Object.each_of_spells hP ho, Elements.each_of_spells hP hrest⟩

end

end

namespace Object

variable {o o' : Object} {bs : Bytes}

/-- What `decode` reads `IsNormal`: all its issued amounts are. -/
theorem isNormal_of_decode (h : decode bs = .ok o) : IsNormal o := by
  refine each_of_spells ⟨?_, fun _ => trivial, fun _ => trivial⟩
    (decode_eq_ok.mp h).spells
  intro s u hs
  -- only the spelling of an issued amount says anything about it
  cases s with
  | amount a =>
    cases a with
    | native d => trivial
    | issued a => exact hs.1
  | _ => trivial

/-- What `decode` reads `HasNoEmptyPathSet`: a path set is read with one path at least. -/
theorem hasNoEmptyPathSet_of_decode (h : decode bs = .ok o) : HasNoEmptyPathSet o := by
  refine each_of_spells ⟨?_, fun _ => by simp, fun _ => by simp⟩
    (decode_eq_ok.mp h).spells
  rintro s u hs heq
  cases heq
  obtain ⟨p, rest, hpaths, -⟩ := hs
  cases hpaths

/-! ## End markers -/

/-- Two objects in order with the same spelling are both `MarkerFree` or neither is. -/
theorem markerFree_congr {previous previous' : Option FieldId} (h : Spells o bs)
    (horder : InOrder previous o) (h' : Spells o' bs) (horder' : InOrder previous' o') :
    MarkerFree o ↔ MarkerFree o' := by
  obtain ⟨segments, hlayout⟩ := exists_layout h horder
  obtain ⟨segments', hlayout'⟩ := exists_layout h' horder'
  -- the string is cut without a look at the objects
  have hsegments : segments = segments' :=
    Option.some.inj (hlayout.splits.split_eq.symm.trans hlayout'.splits.split_eq)
  subst hsegments
  exact hlayout.nesting_eq_iff.symm.trans hlayout'.nesting_eq_iff

/-! ## Reading back -/

/-- What `encode` writes for an object is `Readable` as the object `filled`, if it is free
of end markers and nested within the levels. -/
theorem readable_filled {levels : Nat} (hnormal : IsNormal o) (h : encode o = .ok bs)
    (hfree : MarkerFree o) (hdepth : depth o ≤ levels) :
    Readable levels none (filled o) bs := by
  obtain ⟨hspells, horder⟩ := spells_of_encodeAfter hnormal h
  refine ⟨hspells, (inOrder_filled none o).mpr horder,
    (markerFree_filled o).mpr hfree, ?_⟩
  rwa [depth_filled]

/-- An object that is free of end markers and not nested too deep is read by `decode` from
what `encode` wrote, `filled`. -/
theorem decode_filled (hnormal : IsNormal o) (h : encode o = .ok bs)
    (hfree : MarkerFree o)
    (hdepth : depth o ≤ Read.maxDepth) : decode bs = .ok (filled o) :=
  decode_eq_ok.mpr (readable_filled hnormal h hfree hdepth)

/-- What `decode` reads of a written object is the object itself, `filled`, and it has no
end marker. -/
theorem eq_filled_of_decode (hnormal : IsNormal o) (h : encode o = .ok bs)
    (h' : decode bs = .ok o') :
    MarkerFree o ∧ o' = filled o := by
  have hread := decode_eq_ok.mp h'
  obtain ⟨hspells, horder⟩ := spells_of_encodeAfter hnormal h
  -- a stray end marker would end more than is opened, but the object that was read
  -- balances
  have hfree : MarkerFree o := by
    rw [← markerFree_filled o]
    have horder' := (inOrder_filled none o).mpr horder
    exact (markerFree_congr hspells horder' hread.spells hread.inOrder).mpr
      hread.markerFree
  exact ⟨hfree, hread.unique (readable_filled hnormal h hfree (Nat.le_refl _))⟩

/-- An object that `encode` writes is read back by `decode` if and only if it is
`MarkerFree`, so none of its fields and elements, at any level, goes by an end marker, and
it is nested ten levels deep at most. It is read as the object `filled` with an empty path
in each path set that has none, so as itself exactly if it `HasNoEmptyPathSet`. -/
theorem decode_encoded (hnormal : IsNormal o) (h : encode o = .ok bs) :
    ((∃ o', decode bs = .ok o') ↔ MarkerFree o ∧ depth o ≤ Read.maxDepth) ∧
      ∀ o', decode bs = .ok o' → o' = filled o ∧ (o' = o ↔ HasNoEmptyPathSet o) := by
  constructor
  · constructor
    · rintro ⟨o', h'⟩
      obtain ⟨hfree, rfl⟩ := eq_filled_of_decode hnormal h h'
      have hdepth := (decode_eq_ok.mp h').depth_le
      rw [depth_filled] at hdepth
      exact ⟨hfree, hdepth⟩
    · rintro ⟨hfree, hdepth⟩
      exact ⟨filled o, decode_filled hnormal h hfree hdepth⟩
  · intro o' h'
    obtain ⟨-, rfl⟩ := eq_filled_of_decode hnormal h h'
    exact ⟨rfl, filled_eq_self_iff o⟩

/-- An inner object with an issued amount and a path set without paths. -/
def pathless : Object :=
  [(Field.memo, .object [(Field.sendMax, .scalar (.amount (.issued .one))),
    (⟨18, 1⟩, .scalar (.pathSet []))])]

/-- The object `pathless` is read back `filled`, which is another object. -/
theorem decode_encoded_pathless :
    ∃ bs, encode pathless = .ok bs ∧ decode bs = .ok (filled pathless) ∧
      filled pathless ≠ pathless := by
  have hnormal : IsNormal pathless :=
    ⟨trivial, ⟨show IssuedValue.Normal _ by decide, trivial, trivial, trivial, trivial⟩,
      trivial⟩
  have hfree : MarkerFree pathless :=
    ⟨by decide, ⟨by decide, trivial, by decide, trivial, trivial⟩, trivial⟩
  have hempty : ¬ HasNoEmptyPathSet pathless := fun h => h.2.1.2.2.1 rfl
  obtain ⟨bs, hbs⟩ : ∃ bs, encode pathless = .ok bs := ⟨_, rfl⟩
  obtain ⟨hread, hvalue⟩ := decode_encoded hnormal hbs
  obtain ⟨o', ho'⟩ := hread.mpr ⟨hfree, by decide⟩
  obtain ⟨rfl, hsame⟩ := hvalue o' ho'
  exact ⟨bs, hbs, ho', fun h => hempty (hsame.mp h)⟩

end Object

/-! ## Trees that can be read -/

/-- The object is one that `decode` can read. -/
structure Object.Canonical (o : Object) : Prop where
  inOrder : Object.InOrder none o
  markerFree : Object.MarkerFree o
  depth_le : Object.depth o ≤ Read.maxDepth
  isNormal : Object.IsNormal o
  hasNoEmptyPathSet : Object.HasNoEmptyPathSet o

namespace Object

variable {o : Object} {bs : Bytes}

theorem canonical_nil : Canonical [] :=
  ⟨trivial, trivial, Nat.zero_le _, trivial, trivial⟩

/-- What `decode` read is `Canonical`. -/
theorem canonical_of_decode (h : decode bs = .ok o) : Canonical o :=
  have hread := decode_eq_ok.mp h
  ⟨hread.inOrder, hread.markerFree, hread.depth_le, isNormal_of_decode h,
    hasNoEmptyPathSet_of_decode h⟩

/-- A `Canonical` object is read back by `decode` when `encode` wrote it. -/
theorem Canonical.decode_encode (ho : Canonical o) (h : encode o = .ok bs) :
    decode bs = .ok o := by
  have hfilled := decode_filled ho.isNormal h ho.markerFree ho.depth_le
  rwa [(filled_eq_self_iff o).mpr ho.hasNoEmptyPathSet] at hfilled

/-- Different `Canonical` objects are written differently. -/
theorem Canonical.encode_inj {o' : Object} (ho : Canonical o) (ho' : Canonical o')
    (h : encode o = .ok bs)
    (h' : encode o' = .ok bs) : o = o' :=
  Except.ok.inj ((ho.decode_encode h).symm.trans (ho'.decode_encode h'))

end Object

end XrpLedger
