import DynamicValue.Proofs.Number.Reading
import DynamicValue.Proofs.Number.Rounding

/-!
The point in the text of a number. The shortest decimal of a whole number has no digits behind the
point: the integer itself is tried before any decimal that has some. A decimal without digits behind
the point is an integer, and no integer rounds to a number with a fraction.
-/

namespace DynamicValue

namespace Decimal

/-- The positional form has a point just where the exponent is negative, also if all places behind
it are zeros. -/
theorem point_mem_positional_iff (d : Decimal) : '.' ∈ d.positional.toList ↔ d.exponent < 0 := by
  have hDigits : '.' ∉ d.digitChars := by
    intro hMem
    cases d.isDigit_of_mem_digitChars _ hMem
  rcases hExponent : d.exponent with zeros | last
  · have hZeros : '.' ∉ List.replicate zeros '0' := by simp
    have hSign : ¬ Int.ofNat zeros < 0 := Int.not_lt.mpr (Int.natCast_nonneg zeros)
    simp only [positional, hExponent, String.toList_ofList, List.mem_append, hDigits, hZeros, hSign,
      or_self]
  · have hSign : Int.negSucc last < 0 := Int.negSucc_lt_zero last
    simp [positional, hExponent, hSign]

/-- Trimming raises the exponent, as it takes zeros off the end. -/
theorem exponent_le_trim (d : Decimal) : d.exponent ≤ d.trim.exponent := by
  fun_induction trim d with
  | case1 d hZero ih => exact Int.le_trans (Int.le_add_of_nonneg_right (by decide)) ih
  | case2 d hNonzero => exact Int.le_refl _

/-- A zero at the end of the digits goes into the exponent. The decimal zero is excluded, as
trimming leaves it alone. -/
theorem trim_ten_mul {digits : Nat} (h : digits ≠ 0) (exponent : Int) :
    (Decimal.mk (10 * digits) exponent).trim = (Decimal.mk digits (exponent + 1)).trim := by
  have hZero : 10 * digits ≠ 0 ∧ 10 * digits % 10 = 0 := by omega
  rw [trim, if_pos hZero, Nat.mul_div_cancel_left _ (by decide)]

/-- Trimming takes off all the zeros that the digits are known to end in. -/
theorem add_le_trim_exponent {digits : Nat} (h : digits ≠ 0) (zeros : Nat) (exponent : Int) :
    exponent + zeros ≤ (Decimal.mk (digits * Nat.pow 10 zeros) exponent).trim.exponent := by
  induction zeros generalizing exponent with
  | zero => exact Int.le_trans (by simp) (exponent_le_trim _)
  | succ zeros ih =>
      have hStep : digits * Nat.pow 10 (zeros + 1) = 10 * (digits * Nat.pow 10 zeros) := by
        rw [← Nat.mul_left_comm]
        exact congrArg (digits * ·) Nat.pow_succ'
      have hSome : digits * Nat.pow 10 zeros ≠ 0 :=
        Nat.mul_ne_zero h (Nat.ne_of_gt (Nat.pow_pos (by decide)))
      rw [hStep, trim_ten_mul hSome]
      exact Int.le_trans (by omega) (ih (exponent + 1))

/-- With enough zeros at the end, a decimal has no places behind the point once it is trimmed. -/
theorem trim_exponent_nonneg {digits zeros : Nat} {exponent : Int} (h : digits ≠ 0)
    (hZeros : 0 ≤ exponent + zeros) :
    0 ≤ (Decimal.mk (digits * Nat.pow 10 zeros) exponent).trim.exponent :=
  Int.le_trans hZeros (add_le_trim_exponent h zeros exponent)

end Decimal

namespace Number

section Shortest

variable {p n count : Nat} {d : Decimal}

/-- Whichever of the two neighbours is chosen, it has the exponent of both. -/
theorem exponent_of_nearerOf? {digits next : Nat} {exponent : Int} {lowerIsNearer : Bool}
    (h : nearerOf? p ⟨digits, exponent⟩ ⟨next, exponent⟩ lowerIsNearer = some d) :
    d.exponent = exponent := by
  unfold nearerOf? at h
  split at h
  case isTrue =>
    cases h
    rfl
  case isFalse =>
    split at h
    case isTrue =>
      cases h
      rfl
    case isFalse => cases h

theorem exponent_of_candidate? (h : candidate? p count = some d) :
    d.exponent = leadingPower p - count :=
  exponent_of_nearerOf? h

/-- A natural number other than zero has more digits, zeros at the end included, than it has such
zeros. -/
theorem length_toDigits_sub_pos (h : n ≠ 0) {zeros : Nat} {scale : Int} (hScale : scale = zeros) :
    0 < ((Nat.toDigits 10 (n * Nat.pow 10 zeros)).length : Int) - scale := by
  rw [hScale]
  apply Int.sub_pos_of_lt
  apply Int.ofNat_lt.mpr
  apply Nat.lt_of_not_le
  intro hShort
  cases zeros with
  | zero => exact Nat.toDigits_ne_nil (List.eq_nil_of_length_eq_zero (Nat.le_zero.mp hShort))
  | succ zeros =>
      rw [Nat.length_toDigits_le_iff (by decide) (by omega)] at hShort
      exact absurd (Nat.le_mul_of_pos_left _ (Nat.pos_of_ne_zero h)) (Nat.not_le_of_lt hShort)

/-- A whole number has at least one digit before the point. -/
theorem leadingPower_pos (hUnits : unitsOf p = n * unitsPerOne) (h : n ≠ 0) :
    0 < leadingPower p := by
  have hScale : (330 : Int) = (330 : Nat) := rfl
  rw [leadingPower, hUnits]
  generalize (330 : Nat) = zeros at hScale ⊢
  rw [Nat.mul_right_comm, Nat.mul_div_cancel _ unitsPerOne_pos]
  exact length_toDigits_sub_pos h hScale

/-- With as many digits as it has before the point, a whole number is a candidate itself. -/
theorem candidate?_leadingPower (hUnits : unitsOf p = n * unitsPerOne)
    (hRange : p ≤ infinityPattern) (h : leadingPower p = count) :
    candidate? p count = some ⟨n, 0⟩ := by
  have hReads : readsBack p ⟨n, 0⟩ = true := by
    rw [readsBack, beq_iff_eq]
    apply nearestPattern_of_exact (Decimal.denominator_pos _) _ hRange
    rw [hUnits]
    exact Nat.mul_right_comm _ _ _
  have hExponent : leadingPower p - count = 0 := by rw [h, Int.sub_self]
  have hOne : unitsPerOne * Nat.pow 10 (0 : Int).toNat = unitsPerOne := Nat.mul_one _
  have hNumerator : unitsOf p * Nat.pow 10 (-(0 : Int)).toNat = n * unitsPerOne :=
    (Nat.mul_one _).trans hUnits
  simp only [candidate?, hExponent, hOne, hNumerator, Nat.mul_div_cancel _ unitsPerOne_pos,
    Nat.mul_mod_left, nearerOf?, hReads, Nat.mul_zero, unitsPerOne_pos, decide_true, Bool.true_or,
    Bool.and_self, if_true]

/-- What is found in a range is found at one place first. -/
theorem exists_of_findSome?_range {α : Type} {f : Nat → Option α} {bound : Nat} {a : α}
    (h : (List.range bound).findSome? f = some a) :
    ∃ i < bound, f i = some a ∧ ∀ j < i, f j = none := by
  induction bound with
  | zero => cases h
  | succ bound ih =>
      rw [List.range_succ, List.findSome?_append, Option.or_eq_some_iff] at h
      rcases h with hBefore | ⟨hNone, hLast⟩
      · obtain ⟨i, hi, hFirst⟩ := ih hBefore
        exact ⟨i, Nat.lt_succ_of_lt hi, hFirst⟩
      · rw [List.findSome?_singleton] at hLast
        refine ⟨bound, Nat.lt_succ_self bound, hLast, fun j hj => ?_⟩
        exact List.findSome?_eq_none_iff.mp hNone j (List.mem_range.mpr hj)

/-- The exact value of a whole number has as many zeros at the end as places behind the point. -/
theorem exactDecimal_trim_exponent_nonneg (hUnits : unitsOf p = n * unitsPerOne) (h : n ≠ 0) :
    0 ≤ (exactDecimal p).trim.exponent := by
  have hTens (zeros : Nat) : n * 1 <<< zeros * Nat.pow 5 zeros = n * Nat.pow 10 zeros := by
    rw [Nat.one_shiftLeft, Nat.mul_assoc]
    exact congrArg (n * ·) (Nat.mul_pow 2 5 zeros).symm
  have hZeros : (0 : Int) ≤ -1074 + (1074 : Nat) := by decide
  rw [exactDecimal, hUnits, unitsPerOne]
  generalize (1074 : Nat) = zeros at hZeros ⊢
  rw [hTens]
  exact Decimal.trim_exponent_nonneg h hZeros

/-- The first candidate of a whole number has at most the digits that stand before the point. -/
theorem shortest_exponent_nonneg (hUnits : unitsOf p = n * unitsPerOne) (h : n ≠ 0)
    (hRange : p ≤ infinityPattern) : 0 ≤ (shortest p).exponent := by
  rw [shortest]
  cases hFound : (List.range 17).findSome? fun i => candidate? p (i + 1) with
  | none => exact exactDecimal_trim_exponent_nonneg hUnits h
  | some d =>
      obtain ⟨i, hi, hHere, hBefore⟩ := exists_of_findSome?_range hFound
      have hPositive := leadingPower_pos hUnits h
      have hExponent := exponent_of_candidate? hHere
      refine Int.le_trans (Int.not_lt.mp fun hPlaces => ?_) d.exponent_le_trim
      -- the number itself has fewer digits than what was found, and was tried before
      have hDigits : leadingPower p = ((leadingPower p).toNat - 1 + 1 : Nat) := by omega
      have hEarlier := candidate?_leadingPower hUnits hRange hDigits
      rw [hBefore _ (by omega)] at hEarlier
      cases hEarlier

end Shortest

/-- A magnitude that an integer rounds to is whole. Integers of more than 53 bits have only whole
numbers around them. -/
theorem unitsPerOne_dvd_of_nearestPattern {n p : Nat} (h : nearestPattern n 1 = p)
    (hFinite : p < infinityPattern) : unitsPerOne ∣ unitsOf p := by
  by_cases hSmall : n ≤ exactLimit
  · rw [← h, (unitsOf_nearestPattern hSmall).2]
    exact Nat.dvd_mul_left _ _
  · have hPattern : unboundedPattern n 1 = p := by
      rw [nearestPattern_eq] at h
      omega
    -- as many bits are rounded off as one has units
    have hDropped : 1074 ≤ droppedBits n 1 := by
      have hNonzero : n ≠ 0 := Nat.ne_of_gt (Nat.zero_lt_of_lt (Nat.lt_of_not_le hSmall))
      have hLength : 53 ≤ n.log2 := (Nat.le_log2 hNonzero).mpr (Nat.le_of_not_le hSmall)
      have hScaled : n * unitsPerOne / 1 = n <<< 1074 := by
        rw [Nat.div_one, Nat.shiftLeft_eq, unitsPerOne, Nat.one_shiftLeft]
      rw [droppedBits, hScaled, log2_shiftLeft hNonzero]
      omega
    rw [← hPattern, unitsOf_unboundedPattern, ← Nat.sub_add_cancel hDropped, Nat.shiftLeft_add,
      Nat.shiftLeft_eq _ 1074, unitsPerOne, Nat.one_shiftLeft]
    exact Nat.dvd_mul_left _ _

section Text

variable {x : Number}

/-- The decimal that a number prints as has places behind the point just if the number has a
fraction. A shortest decimal without places is an integer that rounds to the number, and only whole
numbers are rounded to from integers. -/
theorem printed_exponent_nonneg_iff (h : x.isFinite = true) :
    0 ≤ x.printed.exponent ↔ x.isIntegral = true := by
  have hFinite : x.pattern < infinityPattern := of_decide_eq_true h
  constructor
  · intro hNone
    have hDenominator : x.printed.denominator = 1 := by
      have hPlaces : (-x.printed.exponent).toNat = 0 := by omega
      rw [Decimal.denominator, hPlaces]
    have hRounds := nearestPattern_printed h
    rw [hDenominator] at hRounds
    have hWhole := unitsPerOne_dvd_of_nearestPattern hRounds hFinite
    rw [isIntegral, h, units, Nat.mod_eq_zero_of_dvd hWhole]
    rfl
  · intro hIntegral
    unfold printed
    split
    case isTrue => exact Int.le_refl 0
    case isFalse hLarge =>
      have hUnits := units_of_isIntegral hIntegral
      refine shortest_exponent_nonneg hUnits ?_ (Nat.le_of_lt hFinite)
      -- zero is below the limit
      intro hCount
      apply hLarge
      rw [printsAsInteger, hIntegral, hUnits, hCount, Nat.zero_mul]
      decide +kernel

/-- A point is printed exactly where there is a fraction. -/
theorem point_mem_render_iff (h : x.isFinite = true) :
    '.' ∈ x.render.toList ↔ x.isIntegral = false := by
  have hSign : '.' ∉ x.canonical.signText.toList := by
    rw [signText]
    cases x.canonical.negative <;> decide
  rw [render_eq_printed h, String.toList_append, List.mem_append, or_iff_right hSign,
    Decimal.point_mem_positional_iff, ← Int.not_le, printed_exponent_nonneg_iff h,
    Bool.not_eq_true]

/-- Only what is below zero has a sign. -/
theorem signText_canonical (h : x.isFinite = true) :
    x.canonical.signText.toList = if x.scaled < 0 then ['-'] else [] := by
  by_cases hZero : x.pattern = 0
  · rw [canonical_of_pattern_eq_zero hZero, scaled_of_pattern_eq_zero hZero]
    decide
  · have hUnits : x.units ≠ 0 := mt (units_eq_zero_iff x).mp hZero
    rw [signText_canonical_of_ne_zero h hZero, signText, scaled]
    cases x.negative with
    | false => simp
    | true => simp [hUnits]

/-- A whole number of few enough digits prints as the integer that it is. -/
theorem render_of_printsAsInteger (h : x.printsAsInteger = true) :
    ∃ n : Int, x.scaled = n * unitsPerOne ∧ x.render = n.repr := by
  obtain ⟨hIntegral, hCount⟩ := count_lt_of_printsAsInteger h
  have hNaN := not_isNaN_of_isFinite (isFinite_of_isIntegral hIntegral)
  refine ⟨x.truncate, ?_, ?_⟩
  · rw [truncate_of_isIntegral hIntegral hCount]
    exact scaled_of_isIntegral hIntegral
  · rw [render, hNaN, ← printsAsInteger, h]
    rfl

theorem natAbs_scaled (x : Number) : x.scaled.natAbs = x.units := by
  rw [scaled]
  split
  · exact Int.natAbs_neg _
  · rfl

/-- A finite number prints as digits around a point or without one, and no other number is nearest
to what they say. -/
theorem exists_digits_render (h : x.isFinite = true) :
    ∃ whole places : List Char, whole ≠ [] ∧ (∀ c ∈ whole ++ places, c.isDigit = true) ∧
      x.render.toList =
        (if x.scaled < 0 then ['-'] else []) ++ whole ++ Decimal.fraction places ∧
      ∀ p, IsNearest (Nat.ofDigitChars 10 (whole ++ places) 0) (Nat.pow 10 places.length) p ↔
        p = x.pattern := by
  obtain ⟨whole, places, hWhole, hDigits, hText, hNumerator, hDenominator⟩ :=
    x.printed.exists_digits
  rw [Decimal.ofDigits_numerator] at hNumerator
  rw [Decimal.ofDigits_denominator] at hDenominator
  refine ⟨whole, places, hWhole, hDigits, ?_, fun p => ?_⟩
  · rw [render_eq_printed h, String.toList_append, signText_canonical h, hText, List.append_assoc]
  · rw [hNumerator, hDenominator, isNearest_iff x.printed.denominator_pos, nearestPattern_printed h]

end Text

end Number

open Number in
/-- Numbers print alike only if they are equal. A finite number prints as digits, with a sign if it
is below zero and with a point only if it has a fraction. No other magnitude is nearest to what the
digits say, so that they are read back as an equal number. A whole number below `10^15` prints as
the integer it is, and zero without its sign. -/
theorem number_text_faithful (x : Number) :
    (∀ y, x.render = y.render ↔ x.equals y = true) ∧
    (x.isFinite = true →
      (∃ whole places : List Char, whole ≠ [] ∧ (∀ c ∈ whole ++ places, c.isDigit = true) ∧
        x.render.toList =
          (if x.scaled < 0 then ['-'] else []) ++ whole ++ Decimal.fraction places ∧
        ∀ p, IsNearest (Nat.ofDigitChars 10 (whole ++ places) 0) (Nat.pow 10 places.length) p ↔
          p = x.pattern) ∧
      (∃ y, ofText? x.render.toList = some y ∧ y.equals x = true) ∧
      ('.' ∈ x.render.toList ↔ x.isIntegral = false)) ∧
    (x.isIntegral = true → x.scaled.natAbs < integerLimit * unitsPerOne →
      ∃ n : Int, x.scaled = n * unitsPerOne ∧ x.render = n.repr) ∧
    (x.scaled = 0 → x.render = "0") := by
  refine ⟨render_eq_iff x, ?_, ?_, ?_⟩
  · intro hFinite
    refine ⟨exists_digits_render hFinite, ⟨_, ofText?_render x, ?_⟩, point_mem_render_iff hFinite⟩
    exact (canonical_eq_iff _ _).mp x.canonical_canonical
  · intro hIntegral hSmall
    apply render_of_printsAsInteger
    rw [natAbs_scaled] at hSmall
    rw [printsAsInteger, hIntegral, decide_eq_true hSmall]
    rfl
  · intro hZero
    apply render_of_pattern_eq_zero
    rw [← units_eq_zero_iff, ← natAbs_scaled, hZero]
    rfl

/-- The two ways of printing meet at `10^15`. -/
example : (Number.ofInt (-999999999999999)).render = "-999999999999999" ∧
    (Number.ofInt (-1000000000000000)).render = "-1000000000000000" := by
  decide +kernel

end DynamicValue
