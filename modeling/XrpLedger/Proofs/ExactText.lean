import XrpLedger.Proofs.CorrectRounding
import XrpLedger.Proofs.ValueText

/-!
# Texts of values are exact

A text is one literal at most, so that there is one number that it names. The text of a
normal value names the value, of which nothing is rounded off, and has no needless zero
behind the point.

- `Literal.eq_of_chars_eq`: a text is one literal at most.
- `Literal.Spells.toRat_eq`: a literal names the value that it spells.
- `IssuedValue.toText_exact`: what the text of a value names and how, and that it is read
  back.
-/

namespace XrpLedger

/-! ## Parts of a literal -/

/-- The characters `chars` of a sign tell the sign. -/
theorem Text.Sign.eq_of_chars_eq {sign sign' : Text.Sign} (h : sign.chars = sign'.chars) :
    sign = sign' := by
  cases sign <;> cases sign' <;> first | rfl | cases h

/-- A sign is told from digits and points that it stands in front of, as
`IssuedValue.splitSign` does it. -/
theorem eq_of_sign_append_eq {sign sign' : Text.Sign} {cs ds : List Char}
    (hcs : ∀ c ∈ cs, c.isDigit = true ∨ c = '.')
    (hds : ∀ d ∈ ds, d.isDigit = true ∨ d = '.')
    (h : sign.chars ++ cs = sign'.chars ++ ds) : sign = sign' ∧ cs = ds := by
  have hsplit := congrArg IssuedValue.splitSign h
  rw [IssuedValue.splitSign_append sign hcs,
    IssuedValue.splitSign_append sign' hds] at hsplit
  obtain ⟨-, rfl⟩ := Prod.mk.inj hsplit
  exact ⟨Text.Sign.eq_of_chars_eq (List.append_cancel_right h), rfl⟩

namespace PowerOfTen

variable {p p' : PowerOfTen}

/-- The power of ten in a text is told by its mark and its `chars`. -/
theorem eq_of_chars_eq (hmark : p.mark = p'.mark) (h : p.chars = p'.chars) : p = p' := by
  obtain ⟨hsign, hdigits⟩ := eq_of_sign_append_eq (fun c hc =>
    .inl (p.isDigit_digits c hc))
    (fun c hc => .inl (p'.isDigit_digits c hc)) h
  cases p
  cases p'
  subst hmark hsign hdigits
  rfl

end PowerOfTen

namespace Literal

variable {l l' : Literal}

/-- The digits around the point are told by `numberChars`, also whether there is
a point. -/
theorem eq_of_numberChars_eq (h : l.numberChars = l'.numberChars) :
    l.whole = l'.whole ∧ l.fraction = l'.fraction := by
  have hsplit := congrArg Text.Decimal.splitPoint h
  rw [IssuedValue.splitPoint_numberChars, IssuedValue.splitPoint_numberChars] at hsplit
  obtain ⟨hwhole, hdigits⟩ := Prod.mk.inj hsplit
  refine ⟨hwhole, ?_⟩
  unfold numberChars at h
  unfold fractionDigits at hdigits
  rw [hwhole] at h
  -- a bare point is not told from none by the digits behind it, but by the characters
  cases hfraction : l.fraction with
  | none =>
    cases hfraction' : l'.fraction with
    | none => rfl
    | some ds =>
      rw [hfraction, hfraction'] at h
      exact absurd h (by simp)
  | some ds =>
    cases hfraction' : l'.fraction with
    | none =>
      rw [hfraction, hfraction'] at h
      exact absurd h (by simp)
    | some ds' =>
      rw [hfraction, hfraction'] at hdigits
      exact congrArg some hdigits

/-- A text is one `Literal` at most: its parts are told by its `chars`. -/
theorem eq_of_chars_eq (h : l.chars = l'.chars) : l = l' := by
  have hsplit := congrArg IssuedValue.splitExponent h
  rw [IssuedValue.splitExponent_literal, IssuedValue.splitExponent_literal] at hsplit
  obtain ⟨hbody, hbehind⟩ := Prod.mk.inj hsplit
  obtain ⟨hsign, hnumber⟩ := eq_of_sign_append_eq (IssuedValue.isDigit_or_point l)
    (IssuedValue.isDigit_or_point l') hbody
  obtain ⟨hwhole, hfraction⟩ := eq_of_numberChars_eq hnumber
  -- the power is there in both or in neither
  have hpower : l.power = l'.power := by
    unfold chars at h
    cases hp : l.power with
    | none =>
      rw [hp] at hbehind
      exact (Option.map_eq_none_iff.mp hbehind.symm).symm
    | some p =>
      cases hp' : l'.power with
      | none =>
        rw [hp, hp'] at hbehind
        cases hbehind
      | some p' =>
        rw [hp, hp'] at h
        simp only at h
        rw [hbody] at h
        obtain ⟨hmark, hchars⟩ := List.cons.inj (List.append_cancel_left h)
        exact congrArg some (PowerOfTen.eq_of_chars_eq hmark hchars)
  cases l
  cases l'
  subst hsign hwhole hfraction hpower
  rfl

/-- A literal names with `toRat` the value that it `Spells`. -/
theorem Spells.toRat_eq {v : IssuedValue} (h : l.Spells v) : l.toRat = v.toRat := by
  -- the zeros that the literal lacks are made up for by its exponent
  obtain ⟨k, hvalue, hshift⟩ := h.parts
  have hten : (10 : ℚ) ≠ 0 := by norm_num
  rw [Literal.toRat_eq, IssuedValue.toRat, h.sign, hshift, ← hvalue]
  congr 1
  push_cast
  rw [zpow_add₀ hten, zpow_natCast]
  ring

end Literal

namespace IssuedValue

/-- The text `toText` of a normal value is a `Literal`. The only literal that it is names
just the value, and does not end in a point or in a zero behind it. The value is read from
the text by `ofText`. -/
theorem toText_exact {v : IssuedValue} (hv : v.Normal) :
    (∃ l : Literal, l.chars = v.toText.toList) ∧
    (∀ l : Literal, l.chars = v.toText.toList → l.toRat = v.toRat ∧ l.Trimmed) ∧
    ofText v.toText = .ok v := by
  obtain ⟨l, htext, hspells⟩ := exists_spells hv
  refine ⟨⟨l, htext⟩, fun l' htext' => ?_, ofText_toText hv⟩
  rw [Literal.eq_of_chars_eq (htext'.trans htext.symm)]
  exact ⟨hspells.toRat_eq, hspells.trimmed⟩

/-- The value `-1234.5678901234`, whose mantissa ends in zeros behind the point. -/
theorem toText_exact_trimmed :
    Normal ⟨true, 1234567890123400, -12⟩ ∧
    (∃ l : Literal, l.chars = "-1234.5678901234".toList ∧
      l.toRat = -12345678901234 / 10 ^ 10) ∧
    ofText "-1234.5678901234" = .ok ⟨true, 1234567890123400, -12⟩ := by
  have hnormal : Normal ⟨true, 1234567890123400, -12⟩ := by decide
  have htext : toText ⟨true, 1234567890123400, -12⟩ = "-1234.5678901234" := by
    decide +kernel
  have hvalue : toRat ⟨true, 1234567890123400, -12⟩ = -12345678901234 / 10 ^ 10 := by
    show -(((1234567890123400 : ℕ) : ℚ) * 10 ^ (-12 : ℤ)) = _
    norm_num
  obtain ⟨⟨l, hl⟩, hnames, hread⟩ := toText_exact hnormal
  obtain ⟨hrat, -⟩ := hnames l hl
  rw [htext] at hl hread
  rw [hvalue] at hrat
  exact ⟨hnormal, ⟨l, hl, hrat⟩, hread⟩

end IssuedValue

end XrpLedger
