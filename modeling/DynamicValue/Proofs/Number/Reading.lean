import DynamicValue.Proofs.Number.Canonical
import DynamicValue.Proofs.Number.Count
import DynamicValue.Proofs.Number.Positional
import DynamicValue.Proofs.Number.Shortest

/-!
Reading the text of a number back. Both ways of printing write the digits of a decimal that rounds
to the number, so the text determines the number, up to the sign of zero and the payload of NaN.
-/

namespace DynamicValue

namespace Number

/-- The pattern of an unsigned text, rounded to nearest. -/
def magnitude? (text : List Char) : Option Nat :=
  if text = ['i', 'n', 'f'] then some infinityPattern
  else (Decimal.ofPositional? text).map fun d => nearestPattern d.numerator d.denominator

/-- The number that a text is read as. -/
def ofText? (text : List Char) : Option Number :=
  match text with
  | ['N', 'a', 'N'] => some nan
  | '-' :: rest => (magnitude? rest).map (ofPattern true)
  | rest => (magnitude? rest).map (ofPattern false)

/-- A negative integer is its absolute value behind a sign. -/
theorem repr_neg {n : Nat} (h : n ≠ 0) : (-(n : Int)).repr = "-" ++ n.repr := by
  cases n with
  | zero => exact absurd rfl h
  | succ n => rfl

variable {x : Number}

theorem isFinite_of_isIntegral (h : x.isIntegral = true) : x.isFinite = true :=
  (Bool.and_eq_true_iff.mp h).1

/-- What an integral number is counted as, times the units of one, is its magnitude. -/
theorem units_of_isIntegral (h : x.isIntegral = true) : x.units = x.count * unitsPerOne := by
  simp only [isIntegral, Bool.and_eq_true, beq_iff_eq] at h
  exact (Nat.div_mul_cancel (Nat.dvd_of_mod_eq_zero h.2)).symm

/-- The value of a whole number is its count with its sign. -/
theorem scaled_of_isIntegral (h : x.isIntegral = true) :
    x.scaled = (if x.negative then -(x.count : Int) else x.count) * unitsPerOne := by
  rw [scaled, units_of_isIntegral h, Int.natCast_mul]
  cases x.negative
  · simp only [Bool.false_eq_true, if_false]
  · simp only [if_true, Int.neg_mul]

/-- Truncation of a small whole number takes nothing away. -/
theorem truncate_of_isIntegral (h : x.isIntegral = true) (hSmall : x.count < integerLimit) :
    x.truncate = if x.negative then -(x.count : Int) else x.count := by
  simp only [integerLimit] at hSmall
  apply truncate_of_scaled_eq (not_isNaN_of_isFinite (isFinite_of_isIntegral h))
    (scaled_of_isIntegral h)
  · simp only [minInteger]
    split <;> omega
  · simp only [maxInteger]
    split <;> omega

/-- Without places behind the point the positional form is the usual one of a natural number. -/
theorem positional_natural (n : Nat) : (Decimal.mk n 0).positional = n.repr := by
  rw [Nat.repr_eq_ofList_toDigits]
  exact congrArg String.ofList (List.append_nil _)

/-- A small whole number, truncated and printed, is its sign and its digits. Zero is left out, as it
loses its sign. -/
theorem repr_truncate (h : x.isIntegral = true) (hZero : x.pattern ≠ 0)
    (hSmall : x.count < integerLimit) :
    x.truncate.repr = x.signText ++ (Decimal.mk x.count 0).positional := by
  have hCount : x.count ≠ 0 := by
    intro hCount
    have hUnits := units_of_isIntegral h
    rw [hCount, Nat.zero_mul, units_eq_zero_iff] at hUnits
    exact hZero hUnits
  rw [truncate_of_isIntegral h hSmall, positional_natural, signText]
  cases x.negative with
  | false => exact String.empty_append.symm
  | true => exact repr_neg hCount

/-- The count of a whole number, as a decimal, is rounded to the pattern of that number, of which it
is the exact value. -/
theorem nearestPattern_count (h : x.isIntegral = true) :
    nearestPattern (Decimal.mk x.count 0).numerator (Decimal.mk x.count 0).denominator =
      x.pattern := by
  have hFinite : x.pattern < infinityPattern := of_decide_eq_true (isFinite_of_isIntegral h)
  apply nearestPattern_of_exact Nat.one_pos _ (Nat.le_of_lt hFinite)
  rw [← units, units_of_isIntegral h]
  exact Nat.mul_right_comm _ _ _

theorem signText_canonical_of_ne_zero (hFinite : x.isFinite = true) (h : x.pattern ≠ 0) :
    x.canonical.signText = x.signText := by
  simp [canonical, not_isNaN_of_isFinite hFinite, h]

/-- Whether a number prints as an integer. -/
def printsAsInteger (x : Number) : Bool :=
  x.isIntegral && x.units < integerLimit * unitsPerOne

/-- The decimal that a finite number prints as, behind its sign. -/
def printed (x : Number) : Decimal :=
  if x.printsAsInteger then ⟨x.count, 0⟩ else shortest x.pattern

/-- What prints as an integer is whole and has at most fifteen digits. -/
theorem count_lt_of_printsAsInteger (h : x.printsAsInteger = true) :
    x.isIntegral = true ∧ x.count < integerLimit := by
  obtain ⟨hIntegral, hBound⟩ := Bool.and_eq_true_iff.mp h
  rw [units_of_isIntegral hIntegral, decide_eq_true_eq] at hBound
  exact ⟨hIntegral, Nat.lt_of_mul_lt_mul_right hBound⟩

/-- Zero prints without its sign, any other finite number with it. -/
theorem render_eq_printed (h : x.isFinite = true) :
    x.render = x.canonical.signText ++ x.printed.positional := by
  have hNaN := not_isNaN_of_isFinite h
  by_cases hZero : x.pattern = 0
  · have hUnits : x.units = 0 := (units_eq_zero_iff x).mpr hZero
    have hSmall : x.printsAsInteger = true := by
      rw [printsAsInteger, isIntegral, h, hUnits]
      decide +kernel
    rw [render_of_pattern_eq_zero hZero, canonical_of_pattern_eq_zero hZero, printed,
      if_pos hSmall, count, hUnits, Nat.zero_div]
    rfl
  rw [signText_canonical_of_ne_zero h hZero, render, hNaN, printed, ← printsAsInteger]
  by_cases hSmall : x.printsAsInteger = true
  · obtain ⟨hIntegral, hCount⟩ := count_lt_of_printsAsInteger hSmall
    simp only [Bool.false_eq_true, if_false, hSmall, if_true]
    exact repr_truncate hIntegral hZero hCount
  · simp only [Bool.false_eq_true, if_false, hSmall, h, if_true]

/-- The decimal that a finite number prints as is rounded back to the number, in either of the two
forms. -/
theorem nearestPattern_printed (h : x.isFinite = true) :
    nearestPattern x.printed.numerator x.printed.denominator = x.pattern := by
  unfold printed
  split
  case isTrue hSmall => exact nearestPattern_count (count_lt_of_printsAsInteger hSmall).1
  case isFalse =>
    exact beq_iff_eq.mp (readsBack_shortest (Nat.le_of_lt (of_decide_eq_true h)))

/-- An infinity has no canonical form but itself. -/
theorem canonical_of_pattern_eq_infinity (h : x.pattern = infinityPattern) : x.canonical = x := by
  have hNaN : x.isNaN = false := by simp [isNaN, h]
  have hZero : x.pattern ≠ 0 := by
    rw [h]
    decide
  simp [canonical, hNaN, hZero]

/-- A number is NaN, finite or infinite, and each prints in its own way. -/
theorem render_cases (x : Number) :
    (x.isNaN = true ∧ x.render = "NaN") ∨
      (x.pattern = infinityPattern ∧ x.render = x.signText ++ "inf") ∨
      ∃ d : Decimal, x.isFinite = true ∧ x.render = x.canonical.signText ++ d.positional ∧
        nearestPattern d.numerator d.denominator = x.pattern := by
  cases hNaN : x.isNaN with
  | true => exact .inl ⟨rfl, by rw [render, if_pos hNaN]⟩
  | false =>
      right
      cases hFinite : x.isFinite with
      | true =>
          exact .inr
            ⟨x.printed, rfl, render_eq_printed hFinite, nearestPattern_printed hFinite⟩
      | false =>
          left
          refine ⟨?_, ?_⟩
          · simp only [isNaN, isFinite, decide_eq_false_iff_not] at hNaN hFinite
            omega
          · simp [render, hNaN, hFinite, isIntegral]

/-- A positional form is read as the magnitude nearest to the decimal that it is the form of. -/
theorem magnitude?_positional (d : Decimal) :
    magnitude? d.positional.toList = some (nearestPattern d.numerator d.denominator) := by
  have hDigits : d.positional.toList ≠ ['i', 'n', 'f'] := by
    obtain ⟨c, rest, hText, hDigit⟩ := d.exists_positional_cons
    rw [hText]
    rintro ⟨⟩
    cases hDigit
  obtain ⟨whole, places, hWhole, hEach, hText, hNumerator, hDenominator⟩ := d.exists_digits
  rw [magnitude?, if_neg hDigits, hText, Decimal.ofPositional?_append_fraction hWhole hEach]
  simp only [Option.map_some, hNumerator, hDenominator]

/-- A number is what its sign and the bits below it make up. -/
theorem ofPattern_pattern (x : Number) : ofPattern x.negative x.pattern = x := by
  have hSign : x.pattern < signBit := Nat.mod_lt _ (by decide)
  exact ext_pattern (negative_ofPattern _ hSign) (pattern_ofPattern _ hSign)

/-- Behind its sign, a number is read off its magnitude. -/
theorem ofText?_signText_append (x : Number) {text : String}
    (hSign : ∀ rest, text.toList ≠ '-' :: rest) (hNaN : text.toList ≠ ['N', 'a', 'N'])
    (h : magnitude? text.toList = some x.pattern) :
    ofText? (x.signText ++ text).toList = some x := by
  have hNumber := x.ofPattern_pattern
  rw [signText, String.toList_append]
  cases hNegative : x.negative with
  | true =>
      rw [hNegative] at hNumber
      simp [ofText?, h, hNumber]
  | false =>
      rw [hNegative] at hNumber
      unfold ofText?
      split
      case h_1 hText => exact absurd hText hNaN
      case h_2 rest hText => exact absurd hText (hSign rest)
      case h_3 => simp [h, hNumber]

/-- A finite number and its canonical form differ in their signs at most. -/
theorem pattern_canonical (h : x.isFinite = true) : x.canonical.pattern = x.pattern := by
  rcases x.canonical_cases with ⟨hNaN, _⟩ | ⟨_, hZero, hx⟩ | ⟨_, hx⟩
  · rw [not_isNaN_of_isFinite h] at hNaN
    cases hNaN
  · rw [hx, hZero]
    rfl
  · rw [hx]

/-- What is printed for a number is read as a number equal to it. -/
theorem ofText?_render (x : Number) : ofText? x.render.toList = some x.canonical := by
  rcases x.render_cases with ⟨hNaN, hText⟩ | ⟨hPattern, hText⟩ | ⟨d, hFinite, hText, hRounds⟩
  · rw [hText, canonical, if_pos hNaN]
    rfl
  · rw [hText, canonical_of_pattern_eq_infinity hPattern]
    apply ofText?_signText_append x
    · rintro rest ⟨⟩
    · rintro ⟨⟩
    · rw [hPattern]
      rfl
  · obtain ⟨c, rest, hDigits, hDigit⟩ := d.exists_positional_cons
    rw [hText]
    apply ofText?_signText_append x.canonical
    · rw [hDigits]
      rintro _ ⟨⟩
      cases hDigit
    · rw [hDigits]
      rintro ⟨⟩
      cases hDigit
    · rw [magnitude?_positional, hRounds, pattern_canonical hFinite]

/-- Two numbers print alike only if they are equal. -/
theorem render_eq_iff (x y : Number) : x.render = y.render ↔ x.equals y = true := by
  rw [← canonical_eq_iff]
  constructor
  · intro h
    apply Option.some.inj
    rw [← ofText?_render x, h, ofText?_render y]
  · intro h
    rw [← render_canonical x, h, render_canonical y]

/-- The characters that the texts of numbers are made of. -/
def isNumeral (c : Char) : Bool := c.isDigit || ['-', '.', 'N', 'a', 'i', 'n', 'f'].contains c

theorem isNumeral_of_mem_signText {c : Char} (h : c ∈ x.signText.toList) : isNumeral c = true := by
  have hEach : x.signText.toList.all isNumeral = true := by
    rw [signText]
    cases x.negative <;> decide
  exact List.all_eq_true.mp hEach c h

/-- Every number is written in the characters of numerals, NaN and the infinities as well. None of
these is a bracket or a quote. -/
theorem isNumeral_of_mem_render {c : Char} (h : c ∈ x.render.toList) : isNumeral c = true := by
  have hNaN : "NaN".toList.all isNumeral = true := by decide
  have hInfinite : "inf".toList.all isNumeral = true := by decide
  rcases x.render_cases with ⟨_, hText⟩ | ⟨_, hText⟩ | ⟨d, _, hText, _⟩
  · rw [hText] at h
    exact List.all_eq_true.mp hNaN c h
  · rw [hText, String.toList_append, List.mem_append] at h
    rcases h with hMem | hMem
    · exact isNumeral_of_mem_signText hMem
    · exact List.all_eq_true.mp hInfinite c hMem
  · rw [hText, String.toList_append, List.mem_append] at h
    rcases h with hMem | hMem
    · exact isNumeral_of_mem_signText hMem
    · rcases Decimal.isDigit_or_eq_of_mem_positional hMem with hDigit | rfl
      · simp [isNumeral, hDigit]
      · rfl

def infinity : Number := ofPattern false infinityPattern

theorem eq_infinity (hSign : x.negative = false) (hPattern : x.pattern = infinityPattern) :
    x = infinity := by
  rw [← x.ofPattern_pattern, hSign, hPattern]
  rfl

theorem lt_bracket_of_isDigit {c : Char} (h : c.isDigit = true) : c < '[' := by
  have hNine : c.val ≤ '9'.val := of_decide_eq_true (Bool.and_eq_true_iff.mp h).2
  exact UInt32.lt_of_le_of_lt hNine (by decide)

/-- Only the text of positive infinity begins with a small letter; a digit, a sign and the capital
of NaN all come before the bracket that a list begins with. -/
theorem exists_render_cons (x : Number) :
    ∃ (c : Char) (rest : List Char), x.render.toList = c :: rest ∧
      (c < '[' ∨ (c = 'i' ∧ x = infinity)) := by
  have hSigned (y : Number) (h : y.negative = true) (text : String) :
      (y.signText ++ text).toList = '-' :: text.toList := by
    simp [signText, h]
  have hUnsigned (y : Number) (h : y.negative = false) (text : String) :
      (y.signText ++ text).toList = text.toList := by
    simp [signText, h]
  rcases x.render_cases with ⟨_, hText⟩ | ⟨hPattern, hText⟩ | ⟨d, _, hText, _⟩
  · exact ⟨'N', ['a', 'N'], by rw [hText]; rfl, .inl (by decide)⟩
  · rw [hText]
    cases hNegative : x.negative with
    | true => exact ⟨'-', _, hSigned x hNegative _, .inl (by decide)⟩
    | false =>
        exact ⟨'i', ['n', 'f'], hUnsigned x hNegative _, .inr ⟨rfl, eq_infinity hNegative hPattern⟩⟩
  · rw [hText]
    cases hNegative : x.canonical.negative with
    | true => exact ⟨'-', _, hSigned x.canonical hNegative _, .inl (by decide)⟩
    | false =>
        obtain ⟨c, rest, hDigits, hDigit⟩ := d.exists_positional_cons
        refine ⟨c, rest, ?_, .inl (lt_bracket_of_isDigit hDigit)⟩
        rw [hUnsigned x.canonical hNegative, hDigits]

end Number

end DynamicValue
