import DynamicValue.Decimal

/-!
Reading the positional form of a decimal: digits, and behind a point more digits. What is read is
the decimal that was written, its zeros before the point counted as digits.
-/

namespace DynamicValue

namespace Decimal

/-- Digits behind a point, and no point where there are none. -/
def fraction : List Char → List Char
  | [] => []
  | place :: places => '.' :: place :: places

/-- The decimal of digits before and behind the point. -/
def ofDigits (whole places : List Char) : Decimal :=
  ⟨Nat.ofDigitChars 10 (whole ++ places) 0, -places.length⟩

/-- The decimal that a text in positional form stands for. A point needs digits on both sides. -/
def ofPositional? (text : List Char) : Option Decimal :=
  let whole := text.takeWhile Char.isDigit
  if whole.isEmpty then none
  else
    match text.dropWhile Char.isDigit with
    | [] => some (ofDigits whole [])
    | '.' :: place :: places =>
      if (place :: places).all Char.isDigit then some (ofDigits whole (place :: places)) else none
    | _ => none

variable {whole places : List Char}

theorem takeWhile_append_fraction (h : ∀ c ∈ whole, c.isDigit = true) (places : List Char) :
    (whole ++ fraction places).takeWhile Char.isDigit = whole := by
  rw [List.takeWhile_append_of_pos h]
  cases places <;> simp [fraction]

theorem dropWhile_append_fraction (h : ∀ c ∈ whole, c.isDigit = true) (places : List Char) :
    (whole ++ fraction places).dropWhile Char.isDigit = fraction places := by
  rw [List.dropWhile_append_of_pos h]
  cases places <;> simp [fraction]

/-- Digits around a point, or without one, are read as the decimal of these digits. At least one has
to stand ahead of the point. -/
theorem ofPositional?_append_fraction (hWhole : whole ≠ [])
    (hDigits : ∀ c ∈ whole ++ places, c.isDigit = true) :
    ofPositional? (whole ++ fraction places) = some (ofDigits whole places) := by
  obtain ⟨hBefore, hBehind⟩ := List.forall_mem_append.mp hDigits
  rw [ofPositional?, takeWhile_append_fraction hBefore, dropWhile_append_fraction hBefore]
  cases places with
  | nil => simp [fraction, hWhole]
  | cons place places =>
      have hAll : (place :: places).all Char.isDigit = true := List.all_eq_true.mpr hBehind
      simp only [fraction, hAll, if_true, List.isEmpty_iff, hWhole, if_false]

@[simp] theorem ofDigits_numerator (whole places : List Char) :
    (ofDigits whole places).numerator = Nat.ofDigitChars 10 (whole ++ places) 0 := by
  have hScale : (-(places.length : Int)).toNat = 0 := by omega
  rw [numerator, ofDigits, hScale]
  exact Nat.mul_one _

@[simp] theorem ofDigits_denominator (whole places : List Char) :
    (ofDigits whole places).denominator = Nat.pow 10 places.length := by
  have hScale : (-(-(places.length : Int))).toNat = places.length := by omega
  rw [denominator, ofDigits, hScale]

theorem fraction_of_ne_nil (h : places ≠ []) : fraction places = '.' :: places := by
  cases places with
  | nil => exact absurd rfl h
  | cons place places => rfl

theorem isDigit_of_mem_zeros_append {zeros : Nat} {text : List Char}
    (h : ∀ c ∈ text, c.isDigit = true) :
    ∀ c ∈ List.replicate zeros '0' ++ text, c.isDigit = true := by
  intro c hMem
  rcases List.mem_append.mp hMem with hZero | hText
  · rw [List.eq_of_mem_replicate hZero]
    rfl
  · exact h c hText

theorem isDigit_of_mem_digitChars (d : Decimal) : ∀ c ∈ d.digitChars, c.isDigit = true := by
  intro c hMem
  exact Nat.isDigit_of_mem_toDigits (by decide) (by decide) hMem

/-- Zeros ahead of the digits do not count. -/
theorem ofDigitChars_zeros_append (zeros : Nat) (d : Decimal) :
    Nat.ofDigitChars 10 (List.replicate zeros '0' ++ d.digitChars) 0 = d.digits := by
  rw [Nat.ofDigitChars_append, Nat.ofDigitChars_replicate_zero, Nat.mul_zero]
  exact Nat.ofDigitChars_ten_toDigits

/-- The positional form consists of digits before and behind the point, with the numerator and the
denominator of the decimal. -/
theorem exists_digits (d : Decimal) : ∃ whole places : List Char, whole ≠ [] ∧
    (∀ c ∈ whole ++ places, c.isDigit = true) ∧
    d.positional.toList = whole ++ fraction places ∧
    (ofDigits whole places).numerator = d.numerator ∧
    (ofDigits whole places).denominator = d.denominator := by
  have hDigits := d.isDigit_of_mem_digitChars
  rcases hExponent : d.exponent with zeros | last
  · refine ⟨d.digitChars ++ List.replicate zeros '0', [], ?_, ?_, ?_, ?_, ?_⟩
    · simp [digitChars, Nat.toDigits_ne_nil]
    · intro c hMem
      rw [List.append_nil, List.mem_append, List.mem_replicate] at hMem
      rcases hMem with hDigit | ⟨_, rfl⟩
      · exact hDigits c hDigit
      · rfl
    · simp [positional, hExponent, fraction]
    · rw [ofDigits_numerator, List.append_nil, Nat.ofDigitChars_append,
        Nat.ofDigitChars_replicate_zero, digitChars, Nat.ofDigitChars_ten_toDigits, numerator,
        hExponent]
      exact Nat.mul_comm _ _
    · have hScale : (-Int.ofNat zeros).toNat = 0 := by simp
      rw [ofDigits_denominator, denominator, hExponent, hScale]
      rfl
  · -- the point stands behind at least one digit
    generalize hPadded :
      List.replicate (last + 1 + 1 - d.digitChars.length) '0' ++ d.digitChars = padded
    have hLength : last + 1 < padded.length := by
      rw [← hPadded, List.length_append, List.length_replicate]
      omega
    have hPlaces : (padded.drop (padded.length - (last + 1))).length = last + 1 := by
      rw [List.length_drop]
      omega
    refine ⟨padded.take (padded.length - (last + 1)), padded.drop (padded.length - (last + 1)),
      ?_, ?_, ?_, ?_, ?_⟩
    · apply List.ne_nil_of_length_pos
      rw [List.length_take]
      omega
    · rw [List.take_append_drop, ← hPadded]
      exact isDigit_of_mem_zeros_append hDigits
    · have hSome : padded.drop (padded.length - (last + 1)) ≠ [] :=
        List.ne_nil_of_length_pos (by omega)
      rw [fraction_of_ne_nil hSome, positional, hExponent]
      simp only [hPadded, String.toList_ofList]
    · rw [ofDigits_numerator, List.take_append_drop, ← hPadded, ofDigitChars_zeros_append,
        numerator, hExponent]
      exact (Nat.mul_one _).symm
    · rw [ofDigits_denominator, hPlaces, denominator, hExponent]
      rfl

/-- A decimal begins with a digit, even if it is smaller than one. -/
theorem exists_positional_cons (d : Decimal) :
    ∃ (c : Char) (rest : List Char), d.positional.toList = c :: rest ∧ c.isDigit = true := by
  obtain ⟨whole, places, hWhole, hDigits, hText, _⟩ := d.exists_digits
  obtain ⟨c, rest, rfl⟩ := List.exists_cons_of_ne_nil hWhole
  exact ⟨c, rest ++ fraction places, hText, hDigits c (by simp)⟩

theorem mem_fraction {c : Char} (h : c ∈ fraction places) : c ∈ places ∨ c = '.' := by
  cases places with
  | nil => cases h
  | cons place places =>
      rcases List.mem_cons.mp h with hPoint | hPlace
      · exact .inr hPoint
      · exact .inl hPlace

/-- The positional form has no sign and no exponent: all its characters are digits, but for the
point. -/
theorem isDigit_or_eq_of_mem_positional {d : Decimal} {c : Char} (h : c ∈ d.positional.toList) :
    c.isDigit = true ∨ c = '.' := by
  obtain ⟨whole, places, _, hDigits, hText, _⟩ := d.exists_digits
  rw [hText, List.mem_append] at h
  rcases h with hWhole | hFraction
  · exact .inl (hDigits c (List.mem_append_left _ hWhole))
  · rcases mem_fraction hFraction with hPlace | hPoint
    · exact .inl (hDigits c (List.mem_append_right _ hPlace))
    · exact .inr hPoint

end Decimal

end DynamicValue
