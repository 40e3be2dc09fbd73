import DynamicValue.Proofs.Number.Nearest

/-!
Rounding to nearest by what it promises. Of the patterns up to infinity none has a magnitude nearer
to the quotient than the one it comes to, and another is as near only if that one is even. No
quotient has two such patterns.
-/

namespace DynamicValue

namespace Number

def distance (m n : Nat) : Nat := (m - n) + (n - m)

/-- How far a quotient and the magnitude of a pattern are apart, in units times the denominator. -/
def gap (num den p : Nat) : Nat := distance (num * unitsPerOne) (unitsOf p * den)

/-- The pattern has the magnitude nearest to `num / den`, with infinity counted as the power of two
behind the largest double. Between two that are equally near it is the even one. -/
structure IsNearest (num den p : Nat) : Prop where
  inRange : p ≤ infinityPattern
  closest : ∀ q ≤ infinityPattern, gap num den p ≤ gap num den q
  even : ∀ q ≤ infinityPattern, q ≠ p → gap num den q = gap num den p → p % 2 = 0

section Integer

variable {den : Nat}

theorem div_le_roundHalfEven (num den : Nat) : num / den ≤ roundHalfEven num den := by
  unfold roundHalfEven
  dsimp only
  split <;> omega

theorem roundHalfEven_le (num den : Nat) : roundHalfEven num den ≤ num / den + 1 := by
  unfold roundHalfEven
  dsimp only
  split <;> omega

/-- A multiple of the denominator is one of the two around the numerator, or a denominator farther
off than one of them. -/
theorem multiple_cases (num den k : Nat) :
    k * den + den ≤ num / den * den ∨ k = num / den ∨ k = num / den + 1 ∨
      num / den * den + 2 * den ≤ k * den := by
  rcases Nat.lt_or_ge k (num / den) with hBelow | hAbove
  · left
    rw [← Nat.succ_mul]
    exact Nat.mul_le_mul_right den hBelow
  · rcases Nat.lt_or_ge (num / den + 1) k with hBeyond | hNear
    · right; right; right
      rw [← Nat.add_mul]
      exact Nat.mul_le_mul_right den hBeyond
    · omega

/-- No multiple of the denominator is nearer than the chosen one, and none is as near unless the
chosen one is even. -/
theorem roundHalfEven_nearest (num k : Nat) (h : 0 < den) :
    distance num (roundHalfEven num den * den) ≤ distance num (k * den) ∧
      (k ≠ roundHalfEven num den →
        distance num (k * den) = distance num (roundHalfEven num den * den) →
        roundHalfEven num den % 2 = 0) := by
  have hParts := Nat.div_add_mod' num den
  have hRest := Nat.mod_lt num h
  have hNext : (num / den + 1) * den = num / den * den + den := Nat.succ_mul _ _
  unfold roundHalfEven distance
  dsimp only
  rcases multiple_cases num den k with hBelow | rfl | rfl | hBeyond <;> split <;> omega

end Integer

/-- How many bits of the quotient, counted in units, are rounded off. -/
def droppedBits (num den : Nat) : Nat := (num * unitsPerOne / den).log2 - 52

/-- The bits that are left, rounded. -/
def keptMantissa (num den : Nat) : Nat :=
  roundHalfEven (num * unitsPerOne) (den <<< droppedBits num den)

/-- The pattern that is rounded to if there is no largest one. -/
def unboundedPattern (num den : Nat) : Nat :=
  droppedBits num den * exponentBit + keptMantissa num den

theorem nearestPattern_eq (num den : Nat) :
    nearestPattern num den = min (unboundedPattern num den) infinityPattern := rfl

section Quotient

variable {num den p q : Nat}

/-- Where bits are rounded off, those ahead of them are a full mantissa. -/
theorem exponentBit_le_div (h : droppedBits num den ≠ 0) :
    exponentBit ≤ num * unitsPerOne / (den <<< droppedBits num den) := by
  have hQuotient : num * unitsPerOne / den ≠ 0 := by
    intro hZero
    rw [droppedBits, hZero] at h
    exact h rfl
  have hLength : 52 + droppedBits num den ≤ (num * unitsPerOne / den).log2 := by
    unfold droppedBits at h ⊢
    omega
  have hPower := (Nat.le_log2 hQuotient).mp hLength
  rw [Nat.pow_add] at hPower
  rw [Nat.shiftLeft_eq, ← Nat.div_div_eq_div_mul]
  exact (Nat.le_div_iff_mul_le (Nat.two_pow_pos _)).mpr hPower

/-- With all but 53 bits dropped, what is left is less than `2^53`. Rounding may still carry it up
to that. -/
theorem div_lt_two_mul_exponentBit (num den : Nat) :
    num * unitsPerOne / (den <<< droppedBits num den) < 2 * exponentBit := by
  have hLength : (num * unitsPerOne / den).log2 + 1 ≤ 53 + droppedBits num den := by
    unfold droppedBits
    omega
  have hPower := Nat.lt_of_lt_of_le (Nat.lt_log2_self (n := num * unitsPerOne / den))
    (Nat.pow_le_pow_right (by decide) hLength)
  rw [Nat.pow_add] at hPower
  rw [Nat.shiftLeft_eq, ← Nat.div_div_eq_div_mul]
  exact (Nat.div_lt_iff_lt_mul (Nat.two_pow_pos _)).mpr hPower

/-- The magnitude of the rounded pattern is the rounded mantissa, shifted back by the bits that were
dropped. -/
theorem unitsOf_unboundedPattern (num den : Nat) :
    unitsOf (unboundedPattern num den) = keptMantissa num den <<< droppedBits num den := by
  apply unitsOf_add_mantissa
  · by_cases h : droppedBits num den = 0
    · exact .inr h
    · exact .inl (Nat.le_trans (exponentBit_le_div h) (div_le_roundHalfEven _ _))
  · exact Nat.le_trans (roundHalfEven_le _ _) (div_lt_two_mul_exponentBit num den)

theorem shiftLeft_mul (m den shift : Nat) : m <<< shift * den = m * (den <<< shift) := by
  rw [Nat.shiftLeft_eq, Nat.shiftLeft_eq, Nat.mul_assoc, Nat.mul_comm den]

/-- A magnitude has no bits among the lowest ones, unless its exponent is too small for that. -/
theorem exists_shiftLeft (shift q : Nat) :
    (∃ m, unitsOf q = m <<< shift) ∨ (shift ≠ 0 ∧ unitsOf q < exponentBit <<< shift) := by
  obtain ⟨exponent, mantissa, rfl, hLow, hHigh⟩ := exists_mantissa q
  rcases Nat.lt_or_ge exponent shift with hBelow | hAbove
  · right
    refine ⟨Nat.ne_of_gt (Nat.zero_lt_of_lt hBelow), ?_⟩
    rw [← unitsOf_add_mantissa (.inl (Nat.le_refl exponentBit)) (by decide)]
    apply unitsOf_lt_unitsOf
    simp only [exponentBit] at hHigh ⊢
    omega
  · left
    refine ⟨mantissa <<< (exponent - shift), ?_⟩
    rw [unitsOf_add_mantissa hLow (Nat.le_of_lt hHigh), ← Nat.shiftLeft_add]
    congr 1
    omega

/-- With no largest pattern, none is nearer than the one that is rounded to. Magnitudes of smaller
exponents lie below the smallest full mantissa, which the quotient has reached, and all others are
multiples of what the mantissa counts. -/
theorem unboundedPattern_nearest (num q : Nat) (h : 0 < den) :
    gap num den (unboundedPattern num den) ≤ gap num den q ∧
      (q ≠ unboundedPattern num den → gap num den q = gap num den (unboundedPattern num den) →
        unboundedPattern num den % 2 = 0) := by
  have hDen : 0 < den <<< droppedBits num den := Nat.shiftLeft_pos_iff.mpr h
  have hHere : gap num den (unboundedPattern num den) = distance (num * unitsPerOne)
      (keptMantissa num den * (den <<< droppedBits num den)) := by
    rw [gap, unitsOf_unboundedPattern, shiftLeft_mul]
  have hParity : unboundedPattern num den % 2 = keptMantissa num den % 2 := by
    simp only [unboundedPattern, exponentBit]
    omega
  rw [hHere, hParity]
  rcases exists_shiftLeft (droppedBits num den) q with ⟨m, hUnits⟩ | ⟨hDropped, hUnits⟩
  · have hThere : gap num den q =
        distance (num * unitsPerOne) (m * (den <<< droppedBits num den)) := by
      rw [gap, hUnits, shiftLeft_mul]
    obtain ⟨hClosest, hEven⟩ := roundHalfEven_nearest (num * unitsPerOne) m hDen
    rw [hThere]
    refine ⟨hClosest, fun hOther => hEven ?_⟩
    rintro rfl
    exact hOther (unitsOf_injective (hUnits.trans (unitsOf_unboundedPattern num den).symm))
  · have hFull : exponentBit * (den <<< droppedBits num den) ≤ num * unitsPerOne :=
      (Nat.le_div_iff_mul_le hDen).mp (exponentBit_le_div hDropped)
    have hBelow : unitsOf q * den < exponentBit * (den <<< droppedBits num den) := by
      rw [← shiftLeft_mul]
      exact Nat.mul_lt_mul_of_pos_right hUnits h
    have hClosest := (roundHalfEven_nearest (num * unitsPerOne) exponentBit hDen).1
    rw [← keptMantissa] at hClosest
    unfold gap distance at *
    omega

/-- Rounding goes to the nearest pattern. What is rounded past infinity without a largest pattern is
at least as large as the magnitude of infinity. -/
theorem isNearest_nearestPattern (num : Nat) (h : 0 < den) :
    IsNearest num den (nearestPattern num den) := by
  rw [nearestPattern_eq]
  by_cases hRange : unboundedPattern num den ≤ infinityPattern
  · rw [Nat.min_eq_left hRange]
    exact ⟨hRange, fun q _ => (unboundedPattern_nearest num q h).1,
      fun q _ => (unboundedPattern_nearest num q h).2⟩
  · have hBeyond : infinityPattern < unboundedPattern num den := Nat.lt_of_not_le hRange
    rw [Nat.min_eq_right (Nat.le_of_lt hBeyond)]
    refine ⟨Nat.le_refl _, ?_, fun _ _ _ _ => by decide⟩
    intro q hq
    have hClosest := (unboundedPattern_nearest num infinityPattern h).1
    have hAbove := Nat.mul_lt_mul_of_pos_right (unitsOf_lt_unitsOf hBeyond) h
    have hBelow := Nat.mul_le_mul_right den (unitsOf_le_unitsOf hq)
    unfold gap distance at *
    omega

/-- Of two patterns that are equally near both are even, so that there is one between them, and that
one is nearer. -/
theorem IsNearest.not_lt (h : 0 < den) (hp : IsNearest num den p) (hq : IsNearest num den q) :
    ¬ p < q := by
  intro hLess
  have hSame := Nat.le_antisymm (hp.closest q hq.inRange) (hq.closest p hp.inRange)
  have hLeft := hp.even q hq.inRange (Nat.ne_of_gt hLess) hSame.symm
  have hRight := hq.even p hp.inRange (Nat.ne_of_lt hLess) hSame
  have hBetween : p + 1 < q := by omega
  have hClosest := hp.closest (p + 1) (Nat.le_of_lt (Nat.lt_of_lt_of_le hBetween hq.inRange))
  have hBelow := Nat.mul_lt_mul_of_pos_right (unitsOf_lt_succ p) h
  have hAbove := Nat.mul_lt_mul_of_pos_right (unitsOf_lt_unitsOf hBetween) h
  unfold gap distance at *
  omega

theorem IsNearest.unique (h : 0 < den) (hp : IsNearest num den p) (hq : IsNearest num den q) :
    p = q :=
  Nat.le_antisymm (Nat.le_of_not_lt (hq.not_lt h hp)) (Nat.le_of_not_lt (hp.not_lt h hq))

/-- What is computed is the only pattern that meets the specification of the nearest one. -/
theorem isNearest_iff (h : 0 < den) : IsNearest num den p ↔ p = nearestPattern num den := by
  constructor
  · intro hp
    exact hp.unique h (isNearest_nearestPattern num h)
  · rintro rfl
    exact isNearest_nearestPattern num h

end Quotient

end Number

end DynamicValue
