import DynamicValue.Number.Order
import DynamicValue.Proofs.Number.Rounding
import DynamicValue.Proofs.Number.Truncation

/-!
Numbers from integers and integers from numbers, and the order on either side. Rounding to nearest
keeps the order of the integers, and truncation that of the numbers. Neither changes an integer up to
`2^53`, on either side of zero.
-/

namespace DynamicValue

namespace Number

section Rounding

variable {m n den p q : Nat}

/-- If the greater quotient went to the smaller pattern, neither could be off the middle between the
two, and they would be one quotient. -/
theorem IsNearest.le_of_le (h : 0 < den) (hOrder : m ≤ n) (hp : IsNearest m den p)
    (hq : IsNearest n den q) : p ≤ q := by
  apply Nat.le_of_not_lt
  intro hSwapped
  have hLower := hp.closest q hq.inRange
  have hUpper := hq.closest p hp.inRange
  have hUnits := Nat.mul_lt_mul_of_pos_right (unitsOf_lt_unitsOf hSwapped) h
  have hScaled : m * unitsPerOne ≤ n * unitsPerOne := Nat.mul_le_mul_right _ hOrder
  have hSame : m * unitsPerOne = n * unitsPerOne := by
    unfold gap distance at hLower hUpper
    omega
  obtain rfl := Nat.eq_of_mul_eq_mul_right unitsPerOne_pos hSame
  exact hq.not_lt h hp hSwapped

/-- Of two natural numbers the larger one is rounded to a magnitude no smaller. They may be rounded
to the same one. -/
theorem unitsOf_nearestPattern_le (h : m ≤ n) :
    unitsOf (nearestPattern m 1) ≤ unitsOf (nearestPattern n 1) :=
  unitsOf_le_unitsOf (IsNearest.le_of_le Nat.one_pos h (isNearest_nearestPattern m Nat.one_pos)
    (isNearest_nearestPattern n Nat.one_pos))

end Rounding

section Order

variable {x y : Number} {m n : Int}

theorem units_ofInt_le (h : m.natAbs ≤ n.natAbs) : (ofInt m).units ≤ (ofInt n).units := by
  rw [units, units, pattern_ofInt, pattern_ofInt]
  exact unitsOf_nearestPattern_le h

/-- Integers keep their order when they become numbers. Above and below zero this is the order of
the magnitudes, the one way round and the other, and from one side to the other the signs decide. -/
theorem scaled_ofInt_le (h : m ≤ n) : (ofInt m).scaled ≤ (ofInt n).scaled := by
  simp only [scaled, negative_ofInt, decide_eq_true_eq]
  by_cases hRight : n < 0
  · have hUnits : (ofInt n).units ≤ (ofInt m).units := units_ofInt_le (by omega)
    rw [if_pos (Int.lt_of_le_of_lt h hRight), if_pos hRight]
    omega
  · by_cases hLeft : m < 0
    · rw [if_pos hLeft, if_neg hRight]
      omega
    · have hUnits : (ofInt m).units ≤ (ofInt n).units := units_ofInt_le (by omega)
      rw [if_neg hLeft, if_neg hRight]
      omega

theorem compare_ne_gt_iff (hx : x.isNaN = false) (hy : y.isNaN = false) :
    x.compare y ≠ .gt ↔ x.scaled ≤ y.scaled := by
  rw [compare, hx, hy]
  exact Int.compare_ne_gt

/-- Truncation keeps the order of values, though it may make two of them the same: the quotient
toward zero does, and so do both bounds. -/
theorem truncate_le_truncate (hx : x.isNaN = false) (hy : y.isNaN = false)
    (h : x.scaled ≤ y.scaled) : x.truncate ≤ y.truncate := by
  have hQuotient := Int.tdiv_le_tdiv (Int.natCast_pos.mpr unitsPerOne_pos) h
  simp only [truncate, hx, hy, Bool.false_eq_true, if_false]
  omega

end Order

/-- The number is the integer and a fraction smaller than one, and neither of the two is on the other
side of zero. -/
def IsWholePart (x : Number) (n : Int) : Prop :=
  ∃ fraction : Int, x.scaled = n * unitsPerOne + fraction ∧ fraction.natAbs < unitsPerOne ∧
    (0 ≤ x.scaled → 0 ≤ n ∧ 0 ≤ fraction) ∧ (x.scaled ≤ 0 → n ≤ 0 ∧ fraction ≤ 0)

section WholePart

variable {x : Number} {m n : Int}

/-- The quotient toward zero is a whole part, and the remainder, which has the sign of the value, is
the fraction that goes with it. -/
theorem isWholePart_tdiv (x : Number) : x.IsWholePart (x.scaled.tdiv unitsPerOne) := by
  refine ⟨x.scaled.tmod unitsPerOne, (Int.tdiv_mul_add_tmod _ _).symm, ?_, ?_, ?_⟩
  · rw [Int.natAbs_tmod]
    exact Nat.mod_lt _ unitsPerOne_pos
  · intro h
    exact ⟨Int.tdiv_nonneg h (Int.natCast_nonneg _), Int.tmod_nonneg _ h⟩
  · intro h
    have hOpposite := Int.neg_nonneg_of_nonpos h
    have hQuotient := Int.tdiv_nonneg hOpposite (Int.natCast_nonneg unitsPerOne)
    have hRest := Int.tmod_nonneg unitsPerOne hOpposite
    rw [Int.neg_tdiv] at hQuotient
    rw [Int.neg_tmod] at hRest
    omega

/-- Two integers are one apart at least, and two fractions on one side of zero are not. -/
theorem IsWholePart.not_lt (hm : x.IsWholePart m) (hn : x.IsWholePart n) : ¬ m < n := by
  intro hLess
  obtain ⟨f, hSum, hSmall, hNonneg, hNonpos⟩ := hm
  obtain ⟨g, hSum', hSmall', hNonneg', hNonpos'⟩ := hn
  have hNext : (m + 1) * unitsPerOne ≤ n * unitsPerOne :=
    Int.mul_le_mul_of_nonneg_right hLess (Int.natCast_nonneg _)
  rw [Int.add_mul, Int.one_mul] at hNext
  rcases Int.le_total 0 x.scaled with hSide | hSide
  · have hLeft := hNonneg hSide
    have hRight := hNonneg' hSide
    omega
  · have hLeft := hNonpos hSide
    have hRight := hNonpos' hSide
    omega

/-- There is one whole part only, the quotient toward zero. -/
theorem isWholePart_iff : x.IsWholePart n ↔ n = x.scaled.tdiv unitsPerOne := by
  constructor
  · intro h
    exact Int.le_antisymm (Int.not_lt.mp (x.isWholePart_tdiv.not_lt h))
      (Int.not_lt.mp (h.not_lt x.isWholePart_tdiv))
  · rintro rfl
    exact x.isWholePart_tdiv

/-- Truncation goes to the whole part, and no further than to the bounds of the 64-bit range. -/
theorem truncate_of_isWholePart (hNaN : x.isNaN = false) (h : x.IsWholePart n) :
    x.truncate = max minInteger (min maxInteger n) := by
  rw [isWholePart_iff.mp h, truncate, hNaN]
  rfl

/-- An infinity is beyond all integers of 64 bits. -/
theorem truncate_of_infinite (hFinite : x.isFinite = false) (hNaN : x.isNaN = false) :
    x.truncate = if x.negative then minInteger else maxInteger := by
  have hPattern : x.pattern = infinityPattern := by
    simp only [isFinite, isNaN, decide_eq_false_iff_not] at hFinite hNaN
    omega
  have hCount : 0x8000000000000000 ≤ x.count := by
    rw [count, units, hPattern]
    decide +kernel
  rw [truncate_of_not_isNaN hNaN]
  simp only [minInteger, maxInteger]
  split <;> omega

end WholePart

end Number

open Number in
/-- An integer becomes the nearest number and keeps its sign, so that integers stay in order, and up
to `2^53` it becomes the number that it is, and is what this number is truncated to. Truncation keeps
numbers in order. It drops the fraction, which leaves one integer, and goes no further than to the
bound of the 64-bit range on the same side. From an infinity it goes to that bound, and from NaN to
zero. -/
theorem integer_conversions_exact_and_monotone (n : Int) (x : Number) :
    (n.natAbs ≤ exactLimit →
      (ofInt n).truncate = n ∧ (ofInt n).isIntegral = true ∧ (ofInt n).scaled = n * unitsPerOne) ∧
    (IsNearest n.natAbs 1 (ofInt n).pattern ∧ (ofInt n).negative = decide (n < 0)) ∧
    (∀ count : Nat, ofNat count = ofInt count) ∧
    (∀ m ≤ n, (ofInt m).compare (ofInt n) ≠ .gt) ∧
    (∀ y, x.isNaN = false → y.isNaN = false → x.compare y ≠ .gt → x.truncate ≤ y.truncate) ∧
    (x.isFinite = true → ∃ whole, (∀ m, x.IsWholePart m ↔ m = whole) ∧
      (minInteger ≤ whole → whole ≤ maxInteger → x.truncate = whole) ∧
      (whole < minInteger → x.truncate = minInteger) ∧
      (maxInteger < whole → x.truncate = maxInteger)) ∧
    (x.isFinite = false → x.isNaN = false →
      x.truncate = if x.negative then minInteger else maxInteger) ∧
    (x.isNaN = true → x.truncate = 0) := by
  refine ⟨?_, ?_, ofNat_eq_ofInt, ?_, ?_, ?_, truncate_of_infinite, truncate_of_isNaN⟩
  · intro h
    refine ⟨truncate_ofInt h, ?_, scaled_ofInt h⟩
    rw [isIntegral, isFinite_ofInt h, units_ofInt h, Nat.mul_mod_left]
    rfl
  · rw [pattern_ofInt]
    exact ⟨isNearest_nearestPattern n.natAbs Nat.one_pos, negative_ofInt n⟩
  · intro m h
    rw [compare_ne_gt_iff (isNaN_ofInt m) (isNaN_ofInt n)]
    exact scaled_ofInt_le h
  · intro y hx hy h
    exact truncate_le_truncate hx hy ((compare_ne_gt_iff hx hy).mp h)
  · intro hFinite
    have hBounds : minInteger ≤ maxInteger := by decide
    have hTruncate :=
      truncate_of_isWholePart (not_isNaN_of_isFinite hFinite) x.isWholePart_tdiv
    refine ⟨x.scaled.tdiv unitsPerOne, fun m => isWholePart_iff, ?_, ?_, ?_⟩
    · intro hLow hHigh
      omega
    · intro hBelow
      omega
    · intro hAbove
      omega

open Number in
/-- The integer below `-2^53` is no number, and what it becomes is not above `-2^53`. The number
`2^63` is one more than the greatest integer of 64 bits and is truncated to it, like infinity. -/
theorem integer_conversions_exact_and_monotone_bounds :
    let n : Int := -9007199254740992
    let x : Number := ⟨0x43e0000000000000⟩
    let y : Number := ⟨0x7ff0000000000000⟩
    n.natAbs ≤ exactLimit ∧ (ofInt n).truncate = n ∧ (ofInt (n - 1)).compare (ofInt n) ≠ .gt ∧
      x.isNaN = false ∧ y.isNaN = false ∧ x.compare y ≠ .gt ∧ x.truncate ≤ y.truncate ∧
      x.isFinite = true ∧ x.IsWholePart 0x8000000000000000 ∧ x.truncate = maxInteger ∧
      y.isFinite = false ∧ y.truncate = maxInteger ∧
      (⟨0xfff8000000000000⟩ : Number).truncate = 0 := by
  intro n x y
  obtain ⟨hExact, _, _, hOrder, hMonotone, hWhole, _, _⟩ :=
    integer_conversions_exact_and_monotone n x
  obtain ⟨_, _, _, _, _, _, hInfinite, _⟩ := integer_conversions_exact_and_monotone n y
  obtain ⟨_, _, _, _, _, _, _, hNaN⟩ :=
    integer_conversions_exact_and_monotone n ⟨0xfff8000000000000⟩
  have hLimit : n.natAbs ≤ exactLimit := by decide
  have hLess : n - 1 ≤ n := by decide
  have hCompare : x.compare y ≠ .gt := by decide +kernel
  have hPart : x.IsWholePart 0x8000000000000000 := by
    refine ⟨0, by decide +kernel, by decide +kernel, fun _ => by decide, fun hNegative => ?_⟩
    exact absurd hNegative (by decide +kernel)
  obtain ⟨whole, hUnique, _, _, hAbove⟩ := hWhole (by decide)
  have hBeyond : maxInteger < whole := by
    rw [← (hUnique _).mp hPart]
    decide
  exact ⟨hLimit, (hExact hLimit).1, hOrder (n - 1) hLess, by decide, by decide, hCompare,
    hMonotone y (by decide) (by decide) hCompare, by decide, hPart, hAbove hBeyond, by decide,
    hInfinite (by decide) (by decide), hNaN (by decide)⟩

end DynamicValue
