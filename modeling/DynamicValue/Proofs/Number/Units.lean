import DynamicValue.Number.Basic

/-!
Patterns and the magnitudes they stand for. Magnitudes grow with the patterns, so a number is known
by its value, except for the sign of zero and for NaNs.
-/

namespace DynamicValue

namespace Number

/-- The next pattern is the next larger magnitude: one mantissa up, or the first mantissa of the
next exponent. -/
theorem unitsOf_lt_succ (p : Nat) : unitsOf p < unitsOf (p + 1) := by
  by_cases hNext : p + 1 < exponentBit
  · have hHere : p < exponentBit := by omega
    rw [unitsOf, unitsOf, if_pos hHere, if_pos hNext]
    omega
  by_cases hHere : p < exponentBit
  · have hEdge : p + 1 = exponentBit := by omega
    rw [hEdge, unitsOf, if_pos hHere]
    exact Nat.lt_of_lt_of_eq hHere rfl
  rw [unitsOf, unitsOf, if_neg hHere, if_neg hNext, Nat.shiftLeft_eq, Nat.shiftLeft_eq]
  simp only [exponentBit] at hHere ⊢
  by_cases hMantissa : p % 0x10000000000000 + 1 < 0x10000000000000
  · have hDiv : (p + 1) / 0x10000000000000 = p / 0x10000000000000 := by omega
    have hMod : (p + 1) % 0x10000000000000 = p % 0x10000000000000 + 1 := by omega
    rw [hDiv, hMod]
    exact Nat.mul_lt_mul_of_pos_right (by omega) (Nat.two_pow_pos _)
  · have hDiv : (p + 1) / 0x10000000000000 - 1 = p / 0x10000000000000 - 1 + 1 := by omega
    have hMod : (p + 1) % 0x10000000000000 = 0 := by omega
    rw [hDiv, hMod, Nat.pow_succ, Nat.mul_comm _ 2, ← Nat.mul_assoc]
    exact Nat.mul_lt_mul_of_pos_right (by omega) (Nat.two_pow_pos _)

/-- Magnitudes are in the order of their patterns, across exponents as well. -/
theorem unitsOf_lt_unitsOf {m n : Nat} (h : m < n) : unitsOf m < unitsOf n := by
  induction n with
  | zero => exact absurd h (Nat.not_lt_zero m)
  | succ n ih =>
      rcases Nat.lt_succ_iff_lt_or_eq.mp h with hLess | rfl
      · exact Nat.lt_trans (ih hLess) (unitsOf_lt_succ n)
      · exact unitsOf_lt_succ m

theorem unitsOf_le_unitsOf {m n : Nat} (h : m ≤ n) : unitsOf m ≤ unitsOf n := by
  rcases Nat.lt_or_eq_of_le h with hLess | rfl
  · exact Nat.le_of_lt (unitsOf_lt_unitsOf hLess)
  · exact Nat.le_refl _

/-- No two patterns have one magnitude. -/
theorem unitsOf_injective {m n : Nat} (h : unitsOf m = unitsOf n) : m = n := by
  rcases Nat.lt_trichotomy m n with hLess | rfl | hMore
  · exact absurd h (Nat.ne_of_lt (unitsOf_lt_unitsOf hLess))
  · rfl
  · exact absurd h.symm (Nat.ne_of_lt (unitsOf_lt_unitsOf hMore))

theorem units_eq_zero_iff (x : Number) : x.units = 0 ↔ x.pattern = 0 := by
  constructor
  · intro h
    exact unitsOf_injective h
  · intro h
    rw [units, h]
    rfl

/-- A number is its sign and the bits below it. -/
theorem ext_pattern {x y : Number} (hSign : x.negative = y.negative)
    (hPattern : x.pattern = y.pattern) : x = y := by
  cases x with
  | mk left => cases y with
    | mk right =>
        congr
        have hLeft := left.toNat_lt
        have hRight := right.toNat_lt
        have hHigh : signBit ≤ left.toNat ↔ signBit ≤ right.toNat := decide_eq_decide.mp hSign
        simp only [pattern, signBit] at hHigh hPattern
        apply UInt64.toNat.inj
        omega

/-- Two numbers of one value are the same, or both zero. -/
theorem eq_or_zero_of_scaled_eq {x y : Number} (h : x.scaled = y.scaled) :
    x = y ∨ (x.pattern = 0 ∧ y.pattern = 0) := by
  by_cases hZero : x.pattern = 0
  · right
    have hx := (units_eq_zero_iff x).mpr hZero
    refine ⟨hZero, (units_eq_zero_iff y).mp ?_⟩
    simp only [scaled, hx] at h
    split at h <;> split at h <;> omega
  · left
    have hx : x.units ≠ 0 := fun hUnits => hZero ((units_eq_zero_iff x).mp hUnits)
    have hBoth : x.negative = y.negative ∧ x.units = y.units := by
      simp only [scaled] at h
      cases hLeft : x.negative <;> cases hRight : y.negative <;> simp [hLeft, hRight] at h ⊢ <;>
        omega
    exact ext_pattern hBoth.1 (unitsOf_injective hBoth.2)

end Number

end DynamicValue
