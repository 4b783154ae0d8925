import XrpLedger.Proofs.Base58Text
import XrpLedger.Proofs.CurrencyText
import XrpLedger.Proofs.JsonMembers
import XrpLedger.Proofs.Layout
import XrpLedger.Proofs.NumberText
import XrpLedger.Proofs.ValueText

/-!
# Trees are read from their JSON forms

The JSON form of a tree keeps all of it, if the fields and wrappers of the tree have names
and its issued amounts are normal. A tree from JSON is such a tree.

- `Scalar.ofJson_toJson`: values without inner fields.
- `Value.ofJson_toJson`, `Object.ofJson_toJson`: trees.
- `Object.toJson_inj`: different trees have different forms.
- `Object.toJson_lossless`: the trees that are read from their JSON forms.
-/

namespace XrpLedger

namespace FieldId

variable {α : Type}

/-! ## Readers -/

/-- A number below the bound is read by `naturalOf` from its JSON number. -/
theorem naturalOf_natural (id : FieldId) {bound n : Nat} (h : n < bound) :
    id.naturalOf bound (.natural n) = .ok n := by
  rw [naturalOf, Json.natural?, if_pos h]

theorem parsedOf_string (id : FieldId) {parse : String → Except CodecError α}
    {text : String}
    {a : α} (h : parse text = .ok a) : id.parsedOf parse (.string text) = .ok a :=
  h

/-- A value is read by `memberOf` from its text, if the text is there. -/
theorem memberOf_map (id : FieldId) {parse : String → Except CodecError α}
    {text : α → String} (h : ∀ a, parse (text a) = .ok a) (a : Option α) :
    id.memberOf parse (a.map fun b => .string (text b)) = .ok a := by
  cases a with
  | none => rfl
  | some b => rw [Option.map_some, memberOf, id.parsedOf_string (h b)]

/-- A list is read by `listOf` from the forms of its items. -/
theorem listOf_map (id : FieldId) {read : Json → Except CodecError α} {write : α → Json}
    (h : ∀ a, read (write a) = .ok a) (as : List α) :
    id.listOf read (.array (as.map write)) = .ok as := by
  show (as.map write).mapM read = .ok as
  refine mapM_eq_ok.mpr (List.forall₂_map_left_iff.mpr (List.forall₂_same.mpr ?_))
  exact fun a _ => h a

/-! ## Codes -/

end FieldId

/-- Where the rows of a table are found by name, the name that `nameOfCode?` gives a code
stands for the code. -/
theorem codeOfName?_of_nameOfCode? {table : List (String × UInt16)}
    (htable : ∀ row ∈ table, codeOfName? table row.1 = some row.2)
    {code : UInt16} {name : String}
    (h : nameOfCode? table code = some name) : codeOfName? table name = some code := by
  obtain ⟨row, hrow, rfl⟩ := Option.map_eq_some_iff.mp h
  have hcode : row.2 = code := by simpa using List.find?_some hrow
  rw [htable row (List.mem_of_find?_eq_some hrow), hcode]

theorem TransactionType.code?_of_name? {code : UInt16} {name : String}
    (h : name? code = some name) : code? name = some code :=
  codeOfName?_of_nameOfCode? (by decide) h

theorem LedgerEntryType.code?_of_name? {code : UInt16} {name : String}
    (h : name? code = some name) : code? name = some code :=
  codeOfName?_of_nameOfCode? (by decide) h

theorem FieldId.codeOf_natural (id : FieldId) (code : UInt16) :
    id.codeOf (.natural code.toNat) = .ok code := by
  show (id.naturalOf UInt16.size (.natural code.toNat)).map UInt16.ofNat = .ok code
  rw [id.naturalOf_natural code.toNat_lt]
  exact congrArg Except.ok UInt16.ofNat_toNat

/-- A code is read by `codeOf` from its name. -/
theorem FieldId.codeOf_string {id : FieldId} {code : UInt16} {name : String}
    (h : id.nameOfCode? code = some name) : id.codeOf (.string name) = .ok code := by
  unfold nameOfCode? at h
  rw [codeOf]
  -- only two fields have codes with names
  by_cases htransaction : id = Field.transactionType
  · rw [if_pos htransaction] at h
    rw [if_pos htransaction, TransactionType.code?_of_name? h]
  · rw [if_neg htransaction] at h
    rw [if_neg htransaction]
    by_cases hentry : id = Field.ledgerEntryType
    · rw [if_pos hentry] at h
      rw [if_pos hentry, LedgerEntryType.code?_of_name? h]
    · rw [if_neg hentry] at h
      cases h

/-! ## Path steps -/

/-- A member that may be missing is set by `insertMember`, if it is there. -/
theorem Json.get?_foldl_toList {α : Type} (name : String) (form : α → Json) (a : Option α)
    (front : List (String × Json)) (other : String) :
    get? (.object ((a.map fun b => (name, form b)).toList.foldl
        (fun ms m => insertMember m.1 m.2 ms) front)) other =
      if name = other then (a.map form).or (get? (.object front) other)
      else get? (.object front) other := by
  cases a with
  | none => exact (ite_self _).symm
  | some b => exact get?_insertMember name (form b) front other

theorem PathStep.get?_toJson (s : PathStep) :
    s.toJson.get? "account" = s.account.map (fun a => .string a.toAddress) ∧
      s.toJson.get? "currency" = s.currency.map (fun c => .string c.toText) ∧
      s.toJson.get? "issuer" = s.issuer.map (fun i => .string i.toAddress) := by
  have hnil (name : String) : Json.get? (.object []) name = none := rfl
  rw [toJson, Json.ofMembers, List.foldl_append, List.foldl_append]
  simp only [Json.get?_foldl_toList, hnil, Option.or_none, String.reduceEq, reduceIte,
    and_self]

/-- A path step is read by `ofJson` from its form `toJson`, whichever of its members it
has. -/
theorem PathStep.ofJson_toJson (id : FieldId) (s : PathStep) :
    ofJson id s.toJson = .ok s := by
  obtain ⟨haccount, hcurrency, hissuer⟩ := s.get?_toJson
  rw [ofJson, haccount, hcurrency, hissuer, id.memberOf_map AccountId.ofAddress_toAddress,
    id.memberOf_map CurrencyCode.ofText_toText,
    id.memberOf_map AccountId.ofAddress_toAddress]

/-! ## Amounts -/

theorem IssuedAmount.get?_toJson (a : IssuedAmount) :
    a.toJson.get? "currency" = some (.string a.currency.toText) ∧
      a.toJson.get? "issuer" = some (.string a.issuer.toAddress) ∧
      a.toJson.get? "value" = some (.string a.value.toText) := by
  simp [toJson, Json.ofMembers, Json.get?_insertMember]

/-- An issued amount with a normal value is read by `ofJson?` from its form `toJson`. -/
theorem IssuedAmount.ofJson?_toJson {a : IssuedAmount} (h : a.value.Normal) :
    ofJson? a.toJson = some a := by
  obtain ⟨hcurrency, hissuer, hvalue⟩ := a.get?_toJson
  have hmake : make a.value a.currency a.issuer = .ok a := make_eq_ok.mpr ⟨rfl, rfl, rfl⟩
  have hparts : ofJson? a.toJson =
    ofParts? (a.toJson.get? "currency") (a.toJson.get? "issuer")
    (a.toJson.get? "value") := rfl
  rw [hparts, hcurrency, hissuer, hvalue, ofParts?, Json.readMember?, Json.readMember?,
    Json.readMember?, CurrencyCode.ofText_toText, AccountId.ofAddress_toAddress,
    IssuedValue.ofText_toText h]
  show (make a.value a.currency a.issuer).toOption = some a
  rw [hmake]
  rfl

/-- An amount that `IsNormal` is read by `ofJson` from its form `toJson`. -/
theorem Amount.ofJson_toJson {a : Amount} (h : a.IsNormal) : ofJson a.toJson = .ok a := by
  cases a with
  | native d =>
    have hread : ofJson? (toJson (.native d)) = some (.native d) := by
      rw [toJson, ofJson?, Drops.ofDropsText_toDropsText]
      rfl
    rw [ofJson, hread]
  | issued a =>
    have hread : ofJson? (toJson (.issued a)) = some (.issued a) :=
      congrArg (Option.map Amount.issued) (IssuedAmount.ofJson?_toJson h)
    rw [ofJson, hread]

/-! ## Scalars -/

/-- A scalar that `IsNormal` is read by `ofJson` from its JSON form `toJson`. -/
theorem Scalar.ofJson_toJson (id : FieldId) {s : Scalar} (h : s.IsNormal) :
    ofJson id s.kind (s.toJson id) = .ok s := by
  cases s with
  | uint8 v =>
    rw [kind, toJson, ofJson, id.naturalOf_natural v.toNat_lt]
    exact congrArg (fun w => Except.ok (uint8 w)) UInt8.ofNat_toNat
  | uint16 v =>
    -- a code goes by its name where it has one
    have hcode : id.codeOf (toJson id (.uint16 v)) = .ok v := by
      rw [toJson]
      cases hname : id.nameOfCode? v with
      | none => exact id.codeOf_natural v
      | some name => exact FieldId.codeOf_string hname
    rw [kind, ofJson, hcode]
    rfl
  | uint32 v =>
    rw [kind, toJson, ofJson, id.naturalOf_natural v.toNat_lt]
    exact congrArg (fun w => Except.ok (uint32 w)) UInt32.ofNat_toNat
  | uint64 v =>
    rw [kind, toJson, ofJson, FieldId.wordOf, Text.parseNat_natural v.toNat_lt]
    exact congrArg (fun w => Except.ok (uint64 w)) UInt64.ofNat_toNat
  | hash128 v =>
    rw [kind, toJson, ofJson, id.parsedOf_string v.ofHex_toHex]
    rfl
  | hash160 v =>
    rw [kind, toJson, ofJson, id.parsedOf_string v.ofHex_toHex]
    rfl
  | hash256 v =>
    rw [kind, toJson, ofJson, id.parsedOf_string v.ofHex_toHex]
    rfl
  | amount a =>
    rw [kind, toJson, ofJson, Amount.ofJson_toJson h]
    rfl
  | blob bs =>
    rw [kind, toJson, ofJson, id.parsedOf_string (Text.Hex.parse_encode bs)]
    rfl
  | accountId a =>
    rw [kind, toJson, ofJson, id.parsedOf_string a.ofAddress_toAddress]
    rfl
  | pathSet paths =>
    have hpath (path : Path) : id.listOf (PathStep.ofJson id)
      (.array (path.map PathStep.toJson)) =
        .ok path := id.listOf_map (PathStep.ofJson_toJson id) path
    rw [kind, toJson, ofJson, id.listOf_map hpath]
    rfl
  | vector256 hashes =>
    have hhash (h : Hash256) := id.parsedOf_string h.ofHex_toHex
    rw [kind, toJson, ofJson, id.listOf_map hhash]
    rfl

/-! ## Trees -/

namespace Value

variable {id : FieldId} {kind : FieldKind}

theorem ofJson_of_scalar (h : id.kind? = some kind) (hobject : kind ≠ .object)
    (harray : kind ≠ .array) (j : Json) :
    ofJson id j = (Scalar.ofJson id kind j).map .scalar := by
  unfold ofJson
  split
  · next hnone => cases h.symm.trans hnone
  · next hkind => exact absurd (Option.some.inj (h.symm.trans hkind)) hobject
  · next hkind => exact absurd (Option.some.inj (h.symm.trans hkind)) harray
  · next j _ _ other hkind _ _ =>
    obtain rfl : kind = other := Option.some.inj (h.symm.trans hkind)
    cases Scalar.ofJson id kind j <;> rfl

theorem ofJson_of_object (h : id.kind? = some .object) (members : List (String × Json)) :
    ofJson id (.object members) = (Object.ofJson (.object members)).map .object := by
  unfold ofJson Object.ofJson
  rw [h]
  simp only
  cases Object.ofMembers [] members <;> rfl

theorem ofJson_of_array (h : id.kind? = some .array) (items : List Json) :
    ofJson id (.array items) = (Elements.ofItems id items).map .array := by
  unfold ofJson
  rw [h]
  simp only
  cases Elements.ofItems id items <;> rfl

end Value

mutual

theorem Value.ofJson_toJson {id : FieldId} :
    ∀ {v : Value}, v.Fits id → v.InOrder → v.IsNamed → v.IsNormal →
      Value.ofJson id (v.toJson id) = .ok v
  | .scalar s, hfits, _, _, hnormal => by
    have hobject : s.kind ≠ .object := by cases s <;> nofun
    have harray : s.kind ≠ .array := by cases s <;> nofun
    rw [Value.toJson, Value.ofJson_of_scalar (FieldId.kind?_of_fits hfits) hobject harray]
    exact congrArg (Except.map Value.scalar) (Scalar.ofJson_toJson id hnormal.1)
  | .object o, hfits, horder, hnamed, hnormal => by
    have hread := Object.ofJson_of_fields horder hnamed
      (Object.ofJson_toJson_of_mem horder hnamed hnormal.2)
    rw [Value.toJson, Json.ofMembers,
      Value.ofJson_of_object (FieldId.kind?_of_fits hfits)]
    exact congrArg (Except.map Value.object) hread
  | .array es, hfits, horder, hnamed, hnormal => by
    have hread := Elements.ofItems_items id horder hnamed hnormal.2
    rw [Value.toJson, Value.ofJson_of_array (FieldId.kind?_of_fits hfits)]
    exact congrArg (Except.map Value.array) hread

/-- The values of the fields of an object are read by `Value.ofJson` from their JSON
forms. -/
theorem Object.ofJson_toJson_of_mem :
    ∀ {previous : Option FieldId} {o : Object}, Object.InOrder previous o →
    Object.IsNamed o →
      Object.IsNormal o → ∀ f ∈ o, Value.ofJson f.1 (f.2.toJson f.1) = .ok f.2
  | _, [], _, _, _ => fun _ hf => nomatch hf
  | _, (id, v) :: rest, ⟨_, horder, horder'⟩, ⟨⟨_, hfits⟩, hnamed, hnamed'⟩,
      ⟨hscalar, hnormal, hnormal'⟩ => by
    intro f hf
    rcases List.mem_cons.mp hf with rfl | hf
    · exact Value.ofJson_toJson hfits horder hnamed ⟨hscalar, hnormal⟩
    · exact Object.ofJson_toJson_of_mem horder' hnamed' hnormal' f hf

theorem Elements.ofItems_items (id : FieldId) :
    ∀ {es : Elements}, Elements.InOrder es → Elements.IsNamed es → Elements.IsNormal es →
      Elements.ofItems id (Elements.items es) = .ok es
  | [], _, _, _ => rfl
  | (inner, o) :: rest, ⟨horder, horder'⟩, ⟨⟨hinner, hkind⟩, hnamed, hnamed'⟩,
      ⟨_, hnormal, hnormal'⟩ => by
    have hobject : Object.ofJson (.ofMembers (Object.members o)) = .ok o :=
      Object.ofJson_of_fields horder hnamed
        (Object.ofJson_toJson_of_mem horder hnamed hnormal)
    have hrest := Elements.ofItems_items id horder' hnamed' hnormal'
    -- the one member of an item need not be sorted
    show Elements.ofItems id (.object [(inner.label, .ofMembers (Object.members o))] ::
      Elements.items rest) = _
    rw [Elements.ofItems, FieldId.ofName_label hinner]
    simp only
    rw [if_pos hkind, hobject, hrest]

end

namespace Object

/-- An object is read by `ofJson` from its JSON form `toJson`. -/
theorem ofJson_toJson {o : Object} (horder : InOrder none o) (hnamed : IsNamed o)
    (hnormal : IsNormal o) : ofJson (toJson o) = .ok o :=
  ofJson_of_fields horder hnamed (ofJson_toJson_of_mem horder hnamed hnormal)

/-- Trees with the same JSON form `toJson` are the same. -/
theorem toJson_inj {o o' : Object} (h : InOrder none o ∧ IsNamed o ∧ IsNormal o)
    (h' : InOrder none o' ∧ IsNamed o' ∧ IsNormal o') (heq : toJson o = toJson o') :
    o = o' := by
  obtain ⟨horder, hnamed, hnormal⟩ := h
  obtain ⟨horder', hnamed', hnormal'⟩ := h'
  have hread := ofJson_toJson horder hnamed hnormal
  rw [heq, ofJson_toJson horder' hnamed' hnormal'] at hread
  exact (Except.ok.inj hread).symm

/-- A tree in order is read by `ofJson` from its JSON form `toJson`, if it `IsNamed`, so
that all its fields and wrappers are known by name, and its issued amounts are normal.
Every tree from JSON is such a tree. -/
theorem toJson_lossless :
    (∀ o : Object, InOrder none o → IsNamed o → IsNormal o → ofJson (toJson o) = .ok o) ∧
      ∀ (j : Json) (o : Object), ofJson j = .ok o → ofJson (toJson o) = .ok o := by
  constructor
  · intro o horder hnamed hnormal
    exact ofJson_toJson horder hnamed hnormal
  · intro j o h
    obtain ⟨horder, hnamed⟩ := named_ofJson h
    exact ofJson_toJson horder hnamed (isNormal_ofJson h)

/-- A payment with an issued amount, a memo and a path of one step. -/
def pathPayment : Object :=
  [(Field.transactionType, .scalar (.uint16 0)),
    (Field.sendMax, .scalar (.amount (.issued .one))),
    (Field.memos, .array [(Field.memo, [(Field.memoData, .scalar (.blob [0x61]))])]),
    (⟨18, 1⟩, .scalar (.pathSet [[⟨none, some IssuedAmount.one.currency, none⟩]]))]

/-- The payment `pathPayment` is read from its JSON form. So is a payment whose type was
given by its code, though the form has the name of the type. -/
theorem toJson_lossless_pathPayment :
    ofJson (toJson pathPayment) = .ok pathPayment ∧
      ∃ o, ofJson (.object [("TransactionType", .natural 0)]) = .ok o ∧
        ofJson (toJson o) = .ok o ∧
        toJson o = .object [("TransactionType", .string "Payment")] := by
  have horder : InOrder none pathPayment :=
    ⟨by decide, trivial, by decide, trivial, by decide,
      ⟨⟨by decide, trivial, trivial⟩, trivial⟩, by decide, trivial, trivial⟩
  have hnamed : IsNamed pathPayment :=
    ⟨by decide, trivial, by decide, trivial, by decide,
      ⟨by decide, ⟨by decide, trivial, trivial⟩, trivial⟩, by decide, trivial, trivial⟩
  have hnormal : IsNormal pathPayment :=
    ⟨trivial, trivial, show IssuedValue.Normal _ by decide, trivial, trivial,
      ⟨trivial, ⟨trivial, trivial, trivial⟩, trivial⟩, trivial, trivial, trivial⟩
  have hcode : ofJson (.object [("TransactionType", .natural 0)]) =
      .ok [(Field.transactionType, .scalar (.uint16 0))] := rfl
  refine ⟨toJson_lossless.1 _ horder hnamed hnormal, _, hcode,
    toJson_lossless.2 _ _ hcode, rfl⟩

end Object

end XrpLedger
