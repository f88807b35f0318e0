import StellarSettle.Core.DecimalTexts

/-!
# Texts of a fixed width

Numbers that are padded to one width are ordered as texts as they are as numbers, and so are texts
that are put together from such parts.
-/

namespace StellarSettle.FixedWidthTexts

open StellarSettle.DecimalTexts

variable {left right leftRest rightRest : List Char}

/-- Of texts with fronts of one length, the fronts decide first. -/
theorem append_lt_append_iff (hlength : left.length = right.length) :
    left ++ leftRest < right ++ rightRest ↔
      left < right ∨ left = right ∧ leftRest < rightRest := by
  induction left generalizing right with
  | nil =>
      obtain rfl := List.length_eq_zero_iff.mp hlength.symm
      simp
  | cons c rest ih =>
      cases right with
      | nil => cases hlength
      | cons d others =>
          have hrest : rest.length = others.length := by simpa using hlength
          rw [List.cons_append, List.cons_append, List.cons_lt_cons_iff, List.cons_lt_cons_iff,
            ih hrest, List.cons.injEq]
          constructor
          · rintro (hlt | ⟨rfl, hlt | ⟨rfl, hlt⟩⟩)
            · exact .inl (.inl hlt)
            · exact .inl (.inr ⟨rfl, hlt⟩)
            · exact .inr ⟨⟨rfl, rfl⟩, hlt⟩
          · rintro ((hlt | ⟨rfl, hlt⟩) | ⟨⟨rfl, rfl⟩, hlt⟩)
            · exact .inl hlt
            · exact .inr ⟨rfl, .inl hlt⟩
            · exact .inr ⟨rfl, .inr ⟨rfl, hlt⟩⟩

theorem ofDigitChars_cons_zero (c : Char) (rest : List Char) :
    Nat.ofDigitChars 10 (c :: rest) 0 =
      10 ^ rest.length * (c.toNat - '0'.toNat) + Nat.ofDigitChars 10 rest 0 := by
  rw [Nat.ofDigitChars_cons, Nat.ofDigitChars_eq_ofDigitChars_zero, Nat.mul_zero, Nat.zero_add]

/-- Leading digits decide first. -/
theorem leading_lt_iff {unit first second low other : ℕ} (hlow : low < unit)
    (hother : other < unit) :
    unit * first + low < unit * second + other ↔
      first < second ∨ first = second ∧ low < other := by
  rcases lt_trichotomy first second with hlt | rfl | hgt
  · have hnext : unit * (first + 1) ≤ unit * second := Nat.mul_le_mul_left _ hlt
    rw [Nat.mul_succ] at hnext
    exact iff_of_true (by omega) (.inl hlt)
  · simp
  · have hnext : unit * (second + 1) ≤ unit * first := Nat.mul_le_mul_left _ hgt
    rw [Nat.mul_succ] at hnext
    exact iff_of_false (by omega) (by omega)

theorem digit_lt_iff {c d : Char} (hc : c.isDigit = true) (hd : d.isDigit = true) :
    c < d ↔ c.toNat - '0'.toNat < d.toNat - '0'.toNat := by
  have hfirst : 48 ≤ c.toNat := (Char.isDigit_iff_toNat.mp hc).1
  have hsecond : 48 ≤ d.toNat := (Char.isDigit_iff_toNat.mp hd).1
  have hzero : '0'.toNat = 48 := rfl
  rw [Char.lt_def, UInt32.lt_iff_toNat_lt, hzero]
  change c.toNat < d.toNat ↔ _
  omega

theorem digit_eq_iff {c d : Char} (hc : c.isDigit = true) (hd : d.isDigit = true) :
    c = d ↔ c.toNat - '0'.toNat = d.toNat - '0'.toNat := by
  have hfirst : 48 ≤ c.toNat := (Char.isDigit_iff_toNat.mp hc).1
  have hsecond : 48 ≤ d.toNat := (Char.isDigit_iff_toNat.mp hd).1
  have hzero : '0'.toNat = 48 := rfl
  rw [← Char.toNat_inj, hzero]
  omega

/-- Digits of one length are ordered as their numbers. -/
theorem digits_lt_iff (hleft : AllDigits left) (hright : AllDigits right)
    (hlength : left.length = right.length) :
    left < right ↔ Nat.ofDigitChars 10 left 0 < Nat.ofDigitChars 10 right 0 := by
  induction left generalizing right with
  | nil =>
      obtain rfl := List.length_eq_zero_iff.mp hlength.symm
      simp
  | cons c rest ih =>
      cases right with
      | nil => cases hlength
      | cons d others =>
          have hrest : rest.length = others.length := by simpa using hlength
          have hc : c.isDigit = true := hleft c List.mem_cons_self
          have hd : d.isDigit = true := hright d List.mem_cons_self
          have hother := ofDigitChars_lt hright.tail
          rw [← hrest] at hother
          rw [List.cons_lt_cons_iff, ofDigitChars_cons_zero, ofDigitChars_cons_zero, ← hrest,
            leading_lt_iff (ofDigitChars_lt hleft.tail) hother, ih hleft.tail hright.tail hrest,
            digit_lt_iff hc hd, digit_eq_iff hc hd]

/-- The digits of a number, with zeros in front. -/
def fixedWidth (width number : ℕ) : List Char := (Nat.toDigits 10 number).leftpad width '0'

theorem allDigits_fixedWidth (width number : ℕ) : AllDigits (fixedWidth width number) :=
  (allDigits_zeros _).append (allDigits_toDigits number)

theorem ofDigitChars_fixedWidth (width number : ℕ) :
    Nat.ofDigitChars 10 (fixedWidth width number) 0 = number := by
  have hzeros (count : ℕ) : Nat.ofDigitChars 10 (List.replicate count '0') 0 = 0 := by
    induction count with
    | zero => rfl
    | succ count ih => rw [List.replicate_succ, ofDigitChars_cons_zero, ih]; simp
  rw [fixedWidth, List.leftpad, ofDigitChars_append_zero, hzeros, Nat.mul_zero, Nat.zero_add,
    Nat.ofDigitChars_toDigits (by decide) (by decide)]

theorem length_fixedWidth {width number : ℕ} (hwidth : 0 < width) (hfits : number < 10 ^ width) :
    (fixedWidth width number).length = width := by
  rw [fixedWidth, length_leftpad_toDigits hwidth hfits]

/-- Numbers that fit are ordered as their texts. -/
theorem fixedWidth_lt_iff {width first second : ℕ} (hwidth : 0 < width)
    (hfirst : first < 10 ^ width) (hsecond : second < 10 ^ width) :
    fixedWidth width first < fixedWidth width second ↔ first < second := by
  rw [digits_lt_iff (allDigits_fixedWidth _ _) (allDigits_fixedWidth _ _)
    ((length_fixedWidth hwidth hfirst).trans (length_fixedWidth hwidth hsecond).symm),
    ofDigitChars_fixedWidth, ofDigitChars_fixedWidth]

theorem fixedWidth_injective {width first second : ℕ}
    (hsame : fixedWidth width first = fixedWidth width second) : first = second := by
  rw [← ofDigitChars_fixedWidth width first, hsame, ofDigitChars_fixedWidth]

end StellarSettle.FixedWidthTexts
