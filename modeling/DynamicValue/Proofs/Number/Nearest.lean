import DynamicValue.Number.Integer
import DynamicValue.Number.Nearest
import DynamicValue.Proofs.Number.Units

/-!
Rounding where there is nothing to round. A quotient that is the magnitude of a pattern goes to this
pattern, whatever fraction it is written as, and so every integer up to `2^53` is a number of its
own.
-/

namespace DynamicValue

namespace Number

theorem unitsPerOne_pos : 0 < unitsPerOne := Nat.shiftLeft_pos_iff.mpr Nat.one_pos

/-- A mantissa with its leading bit, added to the exponents below its own, gives the pattern of the
shifted mantissa. A mantissa of 54 bits, all zero behind the first, carries into the exponent. -/
theorem unitsOf_add_mantissa {shift mantissa : Nat} (hLow : exponentBit ≤ mantissa ∨ shift = 0)
    (hHigh : mantissa ≤ 2 * exponentBit) :
    unitsOf (shift * exponentBit + mantissa) = mantissa <<< shift := by
  by_cases hSmall : mantissa < exponentBit
  · have hShift : shift = 0 := by omega
    rw [hShift, Nat.zero_mul, Nat.zero_add, unitsOf, if_pos hSmall]
    rfl
  · have hLarge : ¬ shift * exponentBit + mantissa < exponentBit := by omega
    rw [unitsOf, if_neg hLarge]
    simp only [exponentBit] at hSmall hHigh ⊢
    by_cases hCarry : mantissa = 0x20000000000000
    · have hDiv : (shift * 0x10000000000000 + mantissa) / 0x10000000000000 - 1 = shift + 1 := by
        omega
      have hMod : (shift * 0x10000000000000 + mantissa) % 0x10000000000000 = 0 := by omega
      rw [hDiv, hMod, hCarry, Nat.shiftLeft_succ]
      simp only [Nat.shiftLeft_eq]
      omega
    · have hDiv : (shift * 0x10000000000000 + mantissa) / 0x10000000000000 - 1 = shift := by
        omega
      have hMod : 0x10000000000000 + (shift * 0x10000000000000 + mantissa) % 0x10000000000000 =
          mantissa := by omega
      rw [hDiv, hMod]

/-- Every pattern is a mantissa over the exponents below its own; the mantissa has its leading bit,
or there are no exponents below. -/
theorem exists_mantissa (p : Nat) : ∃ shift mantissa, p = shift * exponentBit + mantissa ∧
    (exponentBit ≤ mantissa ∨ shift = 0) ∧ mantissa < 2 * exponentBit := by
  by_cases hSmall : p < exponentBit
  · exact ⟨0, p, by omega, .inr rfl, by omega⟩
  · simp only [exponentBit] at hSmall ⊢
    exact ⟨p / 0x10000000000000 - 1, 0x10000000000000 + p % 0x10000000000000, by omega,
      .inl (by omega), by omega⟩

/-- A shift to the left moves the leading bit up by as much. Zero has no leading bit. -/
theorem log2_shiftLeft {n : Nat} (h : n ≠ 0) (shift : Nat) :
    (n <<< shift).log2 = n.log2 + shift := by
  induction shift with
  | zero => rfl
  | succ shift ih =>
      have hShifted : n <<< shift ≠ 0 := mt Nat.shiftLeft_eq_zero_iff.mp h
      rw [Nat.shiftLeft_succ, Nat.log2_two_mul hShifted, ih]
      rfl

/-- The exponents below a mantissa can be read off the length of the shifted mantissa. -/
theorem log2_shiftLeft_sub {shift mantissa : Nat} (hLow : exponentBit ≤ mantissa ∨ shift = 0)
    (hHigh : mantissa < 2 * exponentBit) : (mantissa <<< shift).log2 - 52 = shift := by
  by_cases hZero : mantissa = 0
  · have hShift : shift = 0 := by
      rw [hZero] at hLow
      exact hLow.resolve_left (by decide)
    rw [hZero, hShift]
    rfl
  · have hLength : mantissa.log2 < 53 := (Nat.log2_lt hZero).mpr hHigh
    rw [log2_shiftLeft hZero]
    rcases hLow with hLow | rfl
    · have hExact : 52 ≤ mantissa.log2 := (Nat.le_log2 hZero).mpr hLow
      omega
    · omega

/-- Nothing is left over where the denominator divides. -/
theorem roundHalfEven_mul (n : Nat) {den : Nat} (h : 0 < den) : roundHalfEven (n * den) den = n := by
  simp [roundHalfEven, Nat.mul_div_cancel n h, h]

/-- Extending a fraction does not change what it is rounded to, a half remaining a half. -/
theorem roundHalfEven_mul_mul {factor : Nat} (h : 0 < factor) (num den : Nat) :
    roundHalfEven (factor * num) (factor * den) = roundHalfEven num den := by
  have hTwice (n : Nat) : 2 * (factor * n) = factor * (2 * n) := Nat.mul_left_comm 2 factor n
  simp only [roundHalfEven, Nat.mul_div_mul_left num den h, Nat.mul_mod_mul_left, hTwice,
    Nat.mul_lt_mul_left h, Nat.mul_right_inj (Nat.ne_of_gt h)]

/-- Extending a fraction changes neither its length nor what is left over. -/
theorem nearestPattern_mul {factor : Nat} (h : 0 < factor) (num den : Nat) :
    nearestPattern (factor * num) (factor * den) = nearestPattern num den := by
  have hShift (shift : Nat) : (factor * den) <<< shift = factor * (den <<< shift) := by
    rw [Nat.shiftLeft_eq, Nat.shiftLeft_eq, Nat.mul_assoc]
  simp only [nearestPattern, Nat.mul_assoc, Nat.mul_div_mul_left _ den h, hShift,
    roundHalfEven_mul_mul h]

/-- The magnitude of a pattern rounds to the pattern. -/
theorem nearestPattern_of_exact {num den p : Nat} (hDen : 0 < den)
    (h : num * unitsPerOne = unitsOf p * den) (hFinite : p ≤ infinityPattern) :
    nearestPattern num den = p := by
  obtain ⟨shift, mantissa, rfl, hLow, hHigh⟩ := exists_mantissa p
  rw [unitsOf_add_mantissa hLow (Nat.le_of_lt hHigh)] at h
  have hQuotient : num * unitsPerOne / den = mantissa <<< shift := by
    rw [h, Nat.mul_div_cancel _ hDen]
  have hScaled : num * unitsPerOne = mantissa * (den <<< shift) := by
    rw [h, Nat.shiftLeft_eq, Nat.shiftLeft_eq, Nat.mul_assoc, Nat.mul_comm den]
  have hPositive : 0 < den <<< shift := Nat.shiftLeft_pos_iff.mpr hDen
  simp only [nearestPattern, hQuotient, log2_shiftLeft_sub hLow hHigh]
  rw [hScaled, roundHalfEven_mul mantissa hPositive, Nat.min_eq_left hFinite]

theorem toNat_bits_ofPattern (negative : Bool) {p : Nat} (h : p < signBit) :
    (ofPattern negative p).bits.toNat = if negative then signBit + p else p := by
  simp only [signBit] at h
  apply UInt64.toNat_ofNat_of_lt'
  cases negative <;> simp only [signBit, UInt64.size] <;> grind

theorem pattern_ofPattern (negative : Bool) {p : Nat} (h : p < signBit) :
    (ofPattern negative p).pattern = p := by
  rw [pattern, toNat_bits_ofPattern negative h]
  cases negative with
  | false => exact Nat.mod_eq_of_lt h
  | true => exact (Nat.add_mod_left signBit p).trans (Nat.mod_eq_of_lt h)

theorem negative_ofPattern (negative : Bool) {p : Nat} (h : p < signBit) :
    (ofPattern negative p).negative = negative := by
  rw [Number.negative, toNat_bits_ofPattern negative h]
  cases negative with
  | false => exact decide_eq_false (Nat.not_le_of_lt h)
  | true => exact decide_eq_true (Nat.le_add_right signBit p)

/-- Integers up to this one, `2^53`, are numbers, and so are their negatives. The next one is not. -/
def exactLimit : Nat := 0x20000000000000

/-- An integer with few enough bits is the magnitude of a pattern. It is the mantissa itself if it
has the leading bit, and is shifted up to it if it has not. -/
theorem exists_unitsOf_eq {n : Nat} (h : n ≤ exactLimit) :
    ∃ p < infinityPattern, unitsOf p = n * unitsPerOne := by
  have hUnits : n * unitsPerOne = n <<< 1074 := by
    rw [Nat.shiftLeft_eq, unitsPerOne, Nat.one_shiftLeft]
  by_cases hZero : n = 0
  · exact ⟨0, by decide, by rw [hZero, Nat.zero_mul]; rfl⟩
  by_cases hLong : exponentBit ≤ n
  · refine ⟨1074 * exponentBit + n, ?_, ?_⟩
    · simp only [exactLimit] at h
      simp only [exponentBit, infinityPattern]
      omega
    · rw [hUnits, unitsOf_add_mantissa (.inl hLong) h]
  · have hLength : n.log2 < 52 := (Nat.log2_lt hZero).mpr (Nat.lt_of_not_le hLong)
    generalize hBits : 52 - n.log2 = bits
    have hMantissa : (n <<< bits).log2 = 52 := by
      rw [log2_shiftLeft hZero]
      omega
    have hShifted : n <<< bits ≠ 0 := mt Nat.shiftLeft_eq_zero_iff.mp hZero
    have hLow : exponentBit ≤ n <<< bits := (Nat.le_log2 hShifted).mp (Nat.le_of_eq hMantissa.symm)
    have hBound : (n <<< bits).log2 < 53 := by omega
    have hHigh : n <<< bits < 2 * exponentBit := (Nat.log2_lt hShifted).mp hBound
    refine ⟨(1074 - bits) * exponentBit + n <<< bits, ?_, ?_⟩
    · simp only [exponentBit] at hHigh
      simp only [exponentBit, infinityPattern]
      omega
    · rw [unitsOf_add_mantissa (.inl hLow) (Nat.le_of_lt hHigh), ← Nat.shiftLeft_add, hUnits]
      congr 1
      omega

theorem nearestPattern_le (num den : Nat) : nearestPattern num den ≤ infinityPattern :=
  Nat.min_le_right _ _

/-- A natural number up to `2^53` is rounded to a finite pattern with exactly its magnitude. -/
theorem unitsOf_nearestPattern {n : Nat} (h : n ≤ exactLimit) :
    nearestPattern n 1 < infinityPattern ∧ unitsOf (nearestPattern n 1) = n * unitsPerOne := by
  obtain ⟨p, hFinite, hUnits⟩ := exists_unitsOf_eq h
  have hExact : nearestPattern n 1 = p := by
    apply nearestPattern_of_exact Nat.one_pos _ (Nat.le_of_lt hFinite)
    rw [hUnits, Nat.mul_one]
  rw [hExact]
  exact ⟨hFinite, hUnits⟩

/-- Nothing is cut off a whole number within the 64-bit range. -/
theorem truncate_of_scaled_eq {x : Number} {n : Int} (hNaN : x.isNaN = false)
    (h : x.scaled = n * unitsPerOne) (hLow : minInteger ≤ n) (hHigh : n ≤ maxInteger) :
    x.truncate = n := by
  have hOne : (unitsPerOne : Int) ≠ 0 := Int.natCast_ne_zero.mpr (Nat.ne_of_gt unitsPerOne_pos)
  rw [truncate, hNaN, h, Int.mul_tdiv_cancel _ hOne]
  simp only [Bool.false_eq_true, if_false]
  omega

section Integer

variable {n : Int}

theorem pattern_ofInt (n : Int) : (ofInt n).pattern = nearestPattern n.natAbs 1 :=
  pattern_ofPattern _ (Nat.lt_of_le_of_lt (nearestPattern_le _ _) (by decide))

theorem negative_ofInt (n : Int) : (ofInt n).negative = decide (n < 0) :=
  negative_ofPattern _ (Nat.lt_of_le_of_lt (nearestPattern_le _ _) (by decide))

theorem isNaN_ofInt (n : Int) : (ofInt n).isNaN = false := by
  rw [isNaN, pattern_ofInt]
  exact decide_eq_false (Nat.not_lt_of_le (nearestPattern_le _ _))

theorem isFinite_ofInt (h : n.natAbs ≤ exactLimit) : (ofInt n).isFinite = true := by
  rw [isFinite, pattern_ofInt]
  exact decide_eq_true (unitsOf_nearestPattern h).1

theorem units_ofInt (h : n.natAbs ≤ exactLimit) : (ofInt n).units = n.natAbs * unitsPerOne := by
  rw [units, pattern_ofInt, (unitsOf_nearestPattern h).2]

/-- Up to `2^53`, in either direction, an integer becomes the number with its value. -/
theorem scaled_ofInt (h : n.natAbs ≤ exactLimit) : (ofInt n).scaled = n * unitsPerOne := by
  rw [scaled, negative_ofInt, units_ofInt h, Int.natCast_mul, ← Int.neg_mul]
  by_cases hSign : n < 0
  · rw [if_pos (decide_eq_true hSign)]
    congr 1
    omega
  · rw [if_neg (by simpa using hSign)]
    congr 1
    omega

/-- Up to `2^53`, in either direction, an integer comes back from the number it became. -/
theorem truncate_ofInt (h : n.natAbs ≤ exactLimit) : (ofInt n).truncate = n := by
  simp only [exactLimit] at h
  apply truncate_of_scaled_eq (isNaN_ofInt n) (scaled_ofInt h)
  · simp only [minInteger]
    omega
  · simp only [maxInteger]
    omega

end Integer

section Natural

variable {n : Nat}

/-- Natural numbers are converted like all integers. -/
theorem ofNat_eq_ofInt (n : Nat) : ofNat n = ofInt n := by
  have hSign : decide ((n : Int) < 0) = false :=
    decide_eq_false (Int.not_lt.mpr (Int.natCast_nonneg n))
  rw [ofInt, hSign, Int.natAbs_natCast]
  rfl

theorem isFinite_ofNat (h : n ≤ exactLimit) : (ofNat n).isFinite = true := by
  rw [ofNat_eq_ofInt]
  exact isFinite_ofInt h

theorem scaled_ofNat (h : n ≤ exactLimit) : (ofNat n).scaled = n * unitsPerOne := by
  rw [ofNat_eq_ofInt]
  exact scaled_ofInt h

theorem truncate_ofNat (h : n ≤ exactLimit) : (ofNat n).truncate = n := by
  rw [ofNat_eq_ofInt]
  exact truncate_ofInt h

end Natural

end Number

end DynamicValue
