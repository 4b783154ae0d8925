import XrpLedger.Proofs.DigitReading

/-!
# Number literals

The texts that are read as issued values are number literals: a sign, digits with a point
somewhere among them, and a power of ten, of which only one digit is needed.

- `Literal`: the parts of a literal. `Literal.chars` is its text, and `Literal.Fits` says
  that its exponent is in range.
- `IssuedValue.ofText_literal`: what a literal is read as, part by part.
- `IssuedValue.exists_literal`: whatever is not refused as malformed is a literal.
-/

namespace XrpLedger

open Text.Decimal (natural)

/-- Whether a power of ten follows. -/
def isPowerMark (c : Char) : Bool :=
  c == 'e' || c == 'E'

/-- The power of ten behind a number. -/
structure PowerOfTen where
  mark : Char
  sign : Text.Sign
  digits : List Char
  isPowerMark_mark : isPowerMark mark = true
  digits_ne_nil : digits ≠ []
  isDigit_digits : ∀ c ∈ digits, c.isDigit = true

/-- A number literal. There may be no point, or digits on one side of it only. -/
structure Literal where
  sign : Text.Sign
  whole : List Char
  fraction : Option (List Char)
  power : Option PowerOfTen
  isDigit_whole : ∀ c ∈ whole, c.isDigit = true
  isDigit_fraction : ∀ c ∈ fraction.getD [], c.isDigit = true
  some_digit : whole ≠ [] ∨ fraction.getD [] ≠ []

/-- The number that stands behind the mark. -/
def PowerOfTen.exponent (p : PowerOfTen) : Int :=
  p.sign.apply (natural p.digits)

/-- The characters behind the mark. -/
def PowerOfTen.chars (p : PowerOfTen) : List Char :=
  p.sign.chars ++ p.digits

namespace Literal

/-- The digits behind the point. -/
def fractionDigits (l : Literal) : List Char :=
  l.fraction.getD []

/-- The characters between the sign and the power of ten. -/
def numberChars (l : Literal) : List Char :=
  match l.fraction with
  | none => l.whole
  | some ds => l.whole ++ '.' :: ds

/-- The characters of a literal. -/
def chars (l : Literal) : List Char :=
  match l.power with
  | none => l.sign.chars ++ l.numberChars
  | some p => l.sign.chars ++ l.numberChars ++ p.mark :: p.chars

/-- The power of ten, which is the zeroth if there is none. -/
def exponent (l : Literal) : Int :=
  match l.power with
  | none => 0
  | some p => p.exponent

/-- The exponent is a signed 32-bit number. -/
def Fits (l : Literal) : Prop :=
  -2 ^ 31 ≤ l.exponent ∧ l.exponent < 2 ^ 31

instance (l : Literal) : Decidable l.Fits :=
  inferInstanceAs (Decidable (_ ∧ _))

/-- The number that all digits spell, without the point. -/
def mantissa (l : Literal) : Nat :=
  natural (l.whole ++ l.fractionDigits)

end Literal

namespace IssuedValue

variable {cs ds : List Char}

/-! ## The power of ten -/

theorem splitExponent_eq (cs : List Char) :
    splitExponent cs = match cs.dropWhile (fun c => !isPowerMark c) with
      | [] => (cs, none)
      | _ :: rest => (cs.takeWhile (fun c => !isPowerMark c), some rest) :=
  rfl

/-- Without a mark, `splitExponent` leaves the text as it is. -/
theorem splitExponent_none (hcs : ∀ c ∈ cs, isPowerMark c = false) :
    splitExponent cs = (cs, none) := by
  have hmark : ∀ c ∈ cs, (!isPowerMark c) = true := by
    intro c hc
    rw [hcs c hc]
    rfl
  rw [splitExponent_eq, List.dropWhile_eq_nil_iff.mpr hmark]

/-- At the first mark, `splitExponent` splits the text. -/
theorem splitExponent_mark {mark : Char} (hcs : ∀ c ∈ cs, isPowerMark c = false)
    (hmark : isPowerMark mark = true) (ds : List Char) :
    splitExponent (cs ++ mark :: ds) = (cs, some ds) := by
  have hnone : ∀ c ∈ cs, (!isPowerMark c) = true := by
    intro c hc
    rw [hcs c hc]
    rfl
  -- the mark is the first character that is one
  have hdrop : (cs ++ mark :: ds).dropWhile (fun c => !isPowerMark c) = mark :: ds := by
    rw [List.dropWhile_append_of_pos hnone]
    exact List.dropWhile_cons_of_neg (by simp [hmark])
  have htake : (cs ++ mark :: ds).takeWhile (fun c => !isPowerMark c) = cs := by
    rw [List.takeWhile_append_of_pos hnone, List.takeWhile_cons_of_neg (by simp [hmark]),
      List.append_nil]
  rw [splitExponent_eq, hdrop, htake]

/-- A text is split by `splitExponent` at the first mark, if there is one. -/
theorem eq_of_splitExponent {body : List Char} {exponentPart : Option (List Char)}
    (h : splitExponent cs = (body, exponentPart)) :
    exponentPart = none ∧ cs = body ∨
      ∃ mark rest, isPowerMark mark = true ∧ exponentPart = some rest ∧
      cs = body ++ mark :: rest := by
  have hsplit : cs.takeWhile (fun c => !isPowerMark c) ++
    cs.dropWhile (fun c => !isPowerMark c) =
      cs := List.takeWhile_append_dropWhile
  rw [splitExponent_eq] at h
  cases hdrop : cs.dropWhile (fun c => !isPowerMark c) with
  | nil =>
    rw [hdrop] at h
    cases h
    exact .inl ⟨rfl, rfl⟩
  | cons mark rest =>
    rw [hdrop] at h hsplit
    cases h
    have hmark := List.head_dropWhile_not (fun c => !isPowerMark c) (by rw [hdrop]; simp)
    simp only [hdrop, List.head_cons, Bool.not_eq_false'] at hmark
    exact .inr ⟨mark, rest, hmark, rfl, hsplit.symm⟩

/-! ## The sign -/

/-- A sign is split off by `splitSign`, if the rest does not start with one. -/
theorem splitSign_chars (sign : Text.Sign) (hplus : cs.head? ≠ some '+')
    (hminus : cs.head? ≠ some '-') :
    splitSign (sign.chars ++ cs) = (sign.isMinus, cs) := by
  cases sign with
  | absent =>
    show splitSign cs = (false, cs)
    unfold splitSign
    split
    · exact absurd rfl hminus
    · exact absurd rfl hplus
    · rfl
  | plus => rfl
  | minus => rfl

/-- What `splitSign` takes off is one of the signs of `Text.Sign`. -/
theorem eq_of_splitSign {negative : Bool} {number : List Char}
    (h : splitSign cs = (negative, number)) :
    ∃ sign : Text.Sign, sign.isMinus = negative ∧ cs = sign.chars ++ number := by
  unfold splitSign at h
  split at h
  · cases h
    exact ⟨.minus, rfl, rfl⟩
  · cases h
    exact ⟨.plus, rfl, rfl⟩
  · cases h
    exact ⟨.absent, rfl, rfl⟩

/-! ## The point -/

/-- A text is split by `splitPoint` at the first point, if there is one. -/
theorem eq_of_splitPoint {whole fraction : List Char}
    (h : Text.Decimal.splitPoint cs = (whole, fraction)) :
    cs = whole ∧ fraction = [] ∨ cs = whole ++ '.' :: fraction := by
  have hsplit : cs.takeWhile (· != '.') ++ cs.dropWhile (· != '.') = cs :=
    List.takeWhile_append_dropWhile
  unfold Text.Decimal.splitPoint at h
  obtain ⟨rfl, rfl⟩ := Prod.mk.inj h
  cases hdrop : cs.dropWhile (· != '.') with
  | nil =>
    rw [hdrop, List.append_nil] at hsplit
    exact .inl ⟨hsplit.symm, rfl⟩
  | cons point rest =>
    rw [hdrop] at hsplit
    have hpoint := List.head_dropWhile_not (· != '.') (by rw [hdrop]; simp)
    simp only [hdrop, List.head_cons, bne_eq_false_iff_eq] at hpoint
    subst hpoint
    exact .inr hsplit.symm

/-- What `splitPoint` splits is the digits in front of a point and those behind it, or it
has no point. -/
theorem exists_fraction_of_splitPoint {whole fraction : List Char}
    (h : Text.Decimal.splitPoint cs = (whole, fraction)) :
    ∃ fraction' : Option (List Char), fraction'.getD [] = fraction ∧
      cs = match fraction' with
        | none => whole
        | some ds => whole ++ '.' :: ds := by
  rcases eq_of_splitPoint h with ⟨hcs, hnil⟩ | hcs
  · exact ⟨none, hnil.symm, hcs⟩
  · exact ⟨some fraction, rfl, hcs⟩

/-! ## Literals -/

theorem isPowerMark_sign (sign : Text.Sign) :
    ∀ c ∈ sign.chars, isPowerMark c = false := by
  cases sign with
  | absent => exact List.forall_mem_nil _
  | plus => exact List.forall_mem_singleton.mpr rfl
  | minus => exact List.forall_mem_singleton.mpr rfl

theorem isPowerMark_of_isDigit {c : Char} (hc : c.isDigit = true) :
    isPowerMark c = false := by
  rw [isPowerMark, Bool.or_eq_false_iff, beq_eq_false_iff_ne, beq_eq_false_iff_ne]
  constructor
  · rintro rfl
    cases hc
  · rintro rfl
    cases hc

/-- Between the sign and the power of ten there are digits and a point: these are
`numberChars`. -/
theorem isDigit_or_point (l : Literal) :
    ∀ c ∈ l.numberChars, c.isDigit = true ∨ c = '.' := by
  intro c hc
  have hfraction := l.isDigit_fraction
  unfold Literal.numberChars at hc
  split at hc
  · exact .inl (l.isDigit_whole c hc)
  next ds hds =>
    rw [hds] at hfraction
    rcases List.mem_append.mp hc with hc | hc
    · exact .inl (l.isDigit_whole c hc)
    · rcases List.mem_cons.mp hc with rfl | hc
      · exact .inr rfl
      · exact .inl (hfraction c hc)

/-- The digits of a literal are split by `splitPoint` into `whole` and
`fractionDigits`. -/
theorem splitPoint_numberChars (l : Literal) :
    Text.Decimal.splitPoint l.numberChars = (l.whole, l.fractionDigits) := by
  unfold Literal.numberChars Literal.fractionDigits
  split
  next hnone =>
    rw [hnone]
    exact Text.Decimal.splitPoint_digits l.isDigit_whole
  next ds hds =>
    rw [hds]
    exact Text.Decimal.splitPoint_point l.isDigit_whole ds

/-- A sign is split off by `splitSign` from what consists of digits and points. -/
theorem splitSign_append (sign : Text.Sign) (hcs : ∀ c ∈ cs, c.isDigit = true ∨ c = '.') :
    splitSign (sign.chars ++ cs) = (sign.isMinus, cs) := by
  have hhead : ∀ sign : Char, sign.isDigit = false → sign ≠ '.' →
      cs.head? ≠ some sign := by
    intro sign hdigit hpoint hhead
    rcases hcs sign (List.mem_of_head? hhead) with h | h
    · rw [hdigit] at h
      cases h
    · exact hpoint h
  exact splitSign_chars sign (hhead '+' rfl (by decide)) (hhead '-' rfl (by decide))

/-- A literal is split by `splitExponent` in front of its power of ten. -/
theorem splitExponent_literal (l : Literal) :
    splitExponent l.chars =
    (l.sign.chars ++ l.numberChars, l.power.map PowerOfTen.chars) := by
  have hbody : ∀ c ∈ l.sign.chars ++ l.numberChars, isPowerMark c = false := by
    intro c hc
    rcases List.mem_append.mp hc with hc | hc
    · exact isPowerMark_sign l.sign c hc
    · rcases isDigit_or_point l c hc with hc | rfl
      · exact isPowerMark_of_isDigit hc
      · rfl
  unfold Literal.chars
  split
  next hnone =>
    rw [hnone]
    exact splitExponent_none hbody
  next p hp =>
    rw [hp]
    exact splitExponent_mark hbody p.isPowerMark_mark p.chars

/-- The exponent of a literal that `Fits` is read by `exponentOf?`. -/
theorem exponentOf?_literal {l : Literal} (hfits : l.Fits) :
    exponentOf? (l.power.map PowerOfTen.chars) = some l.exponent := by
  unfold Literal.Fits Literal.exponent at hfits
  unfold Literal.exponent
  split
  next hnone =>
    rw [hnone]
    rfl
  next p hp =>
    rw [hp] at hfits ⊢
    exact (Text.parseInt?_eq_some (by decide)).mpr
      ⟨p.sign, p.digits, rfl, p.digits_ne_nil, p.isDigit_digits, rfl, hfits⟩

/-- A literal is read by `ofText` as the number that its digits spell, with the exponent
that the point leaves. -/
theorem ofText_literal {text : String} {l : Literal} (htext : l.chars = text.toList)
    (hfits : l.Fits) (hroom : l.whole.length + l.fractionDigits.length ≤ 2 ^ 62) :
    ofText text =
      ofScaled l.sign.isMinus l.mantissa
        (l.exponent - (l.fractionDigits.length : Int)) := by
  have hexponent : l.exponent.natAbs ≤ 2 ^ 31 := by
    unfold Literal.Fits at hfits
    omega
  -- the digits are read as the mantissa is, and rounding them gives the same
  obtain ⟨ds, hds, hspells⟩ := Digits.exists_ofParts? l.some_digit l.isDigit_whole
    l.isDigit_fraction (e := l.exponent) (show _ + l.fractionDigits.length < _ by omega)
  have hparts : (exponentOf? (l.power.map PowerOfTen.chars)).bind
      (Digits.ofParts? l.whole l.fractionDigits) = some ds := by
    rw [exponentOf?_literal hfits]
    exact hds
  unfold ofText
  rw [← htext, splitExponent_literal]
  simp only
  rw [splitSign_append l.sign (isDigit_or_point l)]
  simp only
  rw [splitPoint_numberChars]
  simp only
  rw [hparts]
  exact hspells.ofScaled_eq l.sign.isMinus

/-- What `ofText` reads is a `Literal` whose exponent is in range. -/
theorem exists_literal {text : String}
    (h : ofText text ≠ .error (.invalidAmount (.malformed text))) :
    ∃ l : Literal, l.chars = text.toList ∧ l.Fits := by
  unfold ofText at h
  cases hexponent : splitExponent text.toList with
  | mk body exponentPart =>
  cases hsign : splitSign body with
  | mk negative number =>
  cases hpoint : Text.Decimal.splitPoint number with
  | mk whole fraction =>
  rw [hexponent] at h
  simp only at h
  rw [hsign] at h
  simp only at h
  rw [hpoint] at h
  simp only at h
  cases hparts : (exponentOf? exponentPart).bind (Digits.ofParts? whole fraction) with
  | none =>
    rw [hparts] at h
    exact absurd rfl h
  | some ds =>
    obtain ⟨e, he, hdigits⟩ := Option.bind_eq_some_iff.mp hparts
    obtain ⟨hsome, hwhole, hfraction⟩ := Digits.isDigit_of_ofParts? hdigits
    obtain ⟨sign, -, hbody⟩ := eq_of_splitSign hsign
    -- the point is there or not, and so is the power of ten
    obtain ⟨fraction', hfraction', hnumber⟩ := exists_fraction_of_splitPoint hpoint
    subst hfraction'
    rcases eq_of_splitExponent hexponent with
      ⟨rfl, htext⟩ | ⟨mark, rest, hmark, rfl, htext⟩
    · cases he
      refine ⟨⟨sign, whole, fraction', none, hwhole, hfraction, hsome⟩, ?_, ?_⟩
      · rw [htext, hbody, hnumber]
        rfl
      · show (-2 ^ 31 : Int) ≤ 0 ∧ (0 : Int) < 2 ^ 31
        decide
    · obtain ⟨sign', digits, rfl, hne, hdigits, hspelled, hfits⟩ :=
        (Text.parseInt?_eq_some (by decide)).mp he
      refine ⟨⟨sign, whole, fraction',
        some ⟨mark, sign', digits, hmark, hne, hdigits⟩, hwhole, hfraction, hsome⟩,
        ?_, ?_⟩
      · rw [htext, hbody, hnumber]
        rfl
      · show -2 ^ 31 ≤ sign'.apply (natural digits) ∧
          sign'.apply (natural digits) < 2 ^ 31
        rw [hspelled]
        exact hfits

end IssuedValue

end XrpLedger
