import DynamicValue.Proofs.Number.Nearest

/-! Numbers that say how often: whole ones that are not negative. Negative zero is one of them. -/

namespace DynamicValue

namespace Number

def IsCount (x : Number) : Prop := x.isIntegral = true ∧ 0 ≤ x.scaled

instance (x : Number) : Decidable x.IsCount := inferInstanceAs (Decidable (_ ∧ _))

/-- The whole number that a count stands for, however large. -/
def count (x : Number) : Nat := x.units / unitsPerOne

/-- The number is finite and its value is this natural number. Both zeros are zero. -/
def IsExactly (x : Number) (n : Nat) : Prop :=
  x.isFinite = true ∧ x.scaled = (n * unitsPerOne : Nat)

instance (x : Number) (n : Nat) : Decidable (x.IsExactly n) := inferInstanceAs (Decidable (_ ∧ _))

example : (ofPattern true 0).IsExactly 0 := by decide +kernel

theorem not_isNaN_of_isFinite {x : Number} (h : x.isFinite = true) : x.isNaN = false := by
  simp only [isFinite, isNaN, decide_eq_true_eq, decide_eq_false_iff_not] at h ⊢
  omega

theorem scaled_eq_units {x : Number} (h : 0 ≤ x.scaled) : x.scaled = x.units := by
  unfold scaled at h ⊢
  split at h <;> simp_all

/-- The counts are the numbers that are exactly some natural number, which is the one they stand
for. -/
theorem isExactly_iff {x : Number} {n : Nat} : x.IsExactly n ↔ x.IsCount ∧ n = x.count := by
  constructor
  · rintro ⟨hFinite, hValue⟩
    have hSign : 0 ≤ x.scaled := by
      rw [hValue]
      exact Int.natCast_nonneg _
    have hUnits : x.units = n * unitsPerOne := by
      rw [scaled_eq_units hSign] at hValue
      exact Int.ofNat_inj.mp hValue
    have hWhole : x.isIntegral = true := by
      rw [isIntegral, hFinite, hUnits, Nat.mul_mod_left]
      rfl
    refine ⟨⟨hWhole, hSign⟩, ?_⟩
    rw [count, hUnits, Nat.mul_div_cancel n unitsPerOne_pos]
  · rintro ⟨⟨hWhole, hSign⟩, rfl⟩
    simp only [isIntegral, Bool.and_eq_true, beq_iff_eq] at hWhole
    refine ⟨hWhole.1, ?_⟩
    rw [scaled_eq_units hSign, count, Nat.div_mul_cancel (Nat.dvd_of_mod_eq_zero hWhole.2)]

/-- Natural numbers up to `2^53` are exact as numbers. -/
theorem isExactly_ofNat {n : Nat} (h : n ≤ exactLimit) : (ofNat n).IsExactly n := by
  refine ⟨isFinite_ofNat h, ?_⟩
  rw [scaled_ofNat h, Int.natCast_mul]

/-- Truncation brings a count into the 64-bit range and leaves it alone otherwise. -/
theorem truncate_of_isCount {x : Number} (h : x.IsCount) :
    x.truncate = min maxInteger x.count := by
  obtain ⟨hWhole, hSign⟩ := h
  have hFinite : x.isFinite = true := by
    simp only [isIntegral, Bool.and_eq_true] at hWhole
    exact hWhole.1
  have hQuotient : x.scaled.tdiv unitsPerOne = x.count := by
    rw [scaled_eq_units hSign]
    rfl
  simp only [truncate, not_isNaN_of_isFinite hFinite, Bool.false_eq_true, if_false, hQuotient,
    minInteger, maxInteger]
  omega

/-- Saturation is never seen in a product that is compared with a bound within the 64-bit range:
either the factor is zero, or both products are above the bound. -/
theorem mul_truncate_le_iff {x : Number} (h : x.IsCount) (factor bound : Nat)
    (hBound : (bound : Int) < maxInteger) :
    factor * x.truncate.toNat ≤ bound ↔ factor * x.count ≤ bound := by
  rw [truncate_of_isCount h]
  by_cases hSmall : (x.count : Int) ≤ maxInteger
  · rw [Int.min_eq_right hSmall, Int.toNat_natCast]
  · have hLarge : maxInteger ≤ (x.count : Int) := by omega
    rw [Int.min_eq_left hLarge]
    cases factor with
    | zero => simp
    | succ factor =>
        have hMin : bound < maxInteger.toNat := by omega
        have hCount : bound < x.count := by omega
        have hPositive : 0 < factor + 1 := by omega
        have hFirst := Nat.le_mul_of_pos_left maxInteger.toNat hPositive
        have hSecond := Nat.le_mul_of_pos_left x.count hPositive
        omega

end Number

end DynamicValue
