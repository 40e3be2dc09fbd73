import DynamicValue.Number.Order
import DynamicValue.Number.Render
import DynamicValue.Proofs.Number.Units

/-!
One number out of each class of equal ones. Equal numbers are those with one canonical form, and
nothing that is asked of a number tells it from its canonical form, but its bits.
-/

namespace DynamicValue

namespace Number

def nan : Number := ofPattern false (infinityPattern + 1)

/-- One NaN stands for all, and positive zero for both zeros. -/
def canonical (x : Number) : Number :=
  if x.isNaN then nan else if x.pattern = 0 then zero else x

/-- A number is a NaN, one of the two zeros, or its own canonical form. -/
theorem canonical_cases (x : Number) :
    (x.isNaN = true ∧ x.canonical = nan) ∨
      (x.isNaN = false ∧ x.pattern = 0 ∧ x.canonical = zero) ∨
      (x.isNaN = false ∧ x.canonical = x) := by
  unfold canonical
  cases hNaN : x.isNaN with
  | true => exact .inl ⟨rfl, rfl⟩
  | false =>
      by_cases hZero : x.pattern = 0
      · exact .inr (.inl ⟨rfl, hZero, by simp [hZero]⟩)
      · exact .inr (.inr ⟨rfl, by simp [hZero]⟩)

theorem isNaN_nan : nan.isNaN = true := by decide

theorem isNaN_zero : zero.isNaN = false := by decide

@[simp] theorem isNaN_canonical (x : Number) : x.canonical.isNaN = x.isNaN := by
  rcases x.canonical_cases with ⟨hNaN, hx⟩ | ⟨hNaN, _, hx⟩ | ⟨_, hx⟩
  · rw [hx, hNaN, isNaN_nan]
  · rw [hx, hNaN, isNaN_zero]
  · rw [hx]

theorem canonical_of_pattern_eq_zero {x : Number} (h : x.pattern = 0) : x.canonical = zero := by
  have hNaN : x.isNaN = false := by simp [isNaN, h]
  simp [canonical, hNaN, h]

theorem scaled_of_pattern_eq_zero {x : Number} (h : x.pattern = 0) : x.scaled = 0 := by
  simp [scaled, (units_eq_zero_iff x).mpr h]

/-- A number other than NaN keeps its value. All that can change is the sign of a zero, which has
none in the value. -/
theorem scaled_canonical {x : Number} (h : x.isNaN = false) : x.canonical.scaled = x.scaled := by
  rcases x.canonical_cases with ⟨hNaN, _⟩ | ⟨_, hZero, hx⟩ | ⟨_, hx⟩
  · rw [h] at hNaN
    cases hNaN
  · rw [hx, scaled_of_pattern_eq_zero hZero]
    exact scaled_of_pattern_eq_zero rfl
  · rw [hx]

/-- Two numbers are equal if both are NaN, or if neither is and they have one value. -/
theorem equals_iff (x y : Number) :
    x.equals y = true ↔ x.isNaN = true ∧ y.isNaN = true ∨
      x.isNaN = false ∧ y.isNaN = false ∧ x.scaled = y.scaled := by
  unfold equals compare
  cases x.isNaN <;> cases y.isNaN <;> simp

/-- Equality is equality of canonical forms. -/
theorem canonical_eq_iff (x y : Number) : x.canonical = y.canonical ↔ x.equals y = true := by
  rw [equals_iff]
  constructor
  · intro h
    have hNaN : x.isNaN = y.isNaN := by rw [← x.isNaN_canonical, h, y.isNaN_canonical]
    cases hx : x.isNaN with
    | true => exact .inl ⟨rfl, hNaN ▸ hx⟩
    | false =>
        have hy : y.isNaN = false := hNaN ▸ hx
        refine .inr ⟨rfl, hy, ?_⟩
        rw [← scaled_canonical hx, h, scaled_canonical hy]
  · rintro (⟨hx, hy⟩ | ⟨hx, hy, hScaled⟩)
    · simp [canonical, hx, hy]
    · rcases eq_or_zero_of_scaled_eq hScaled with rfl | ⟨hLeft, hRight⟩
      · rfl
      · simp [canonical, hx, hy, hLeft, hRight]

theorem canonical_canonical (x : Number) : x.canonical.canonical = x.canonical := by
  rcases x.canonical_cases with ⟨_, hx⟩ | ⟨_, _, hx⟩ | ⟨_, hx⟩
  · rw [hx]
    decide
  · rw [hx]
    decide
  · rw [hx, hx]

/-- The order looks at values, and puts all NaNs in one place, so that it sees no difference to the
canonical form. -/
theorem compare_canonical (x y : Number) : x.canonical.compare y = x.compare y := by
  unfold compare
  rw [isNaN_canonical]
  cases hx : x.isNaN with
  | true => cases y.isNaN <;> rfl
  | false => rw [scaled_canonical hx]

/-- Zero is the only canonical form that counts as false, as the two zeros are the only such
numbers. -/
theorem isTrue_canonical (x : Number) : x.canonical.isTrue = x.isTrue := by
  rcases x.canonical_cases with ⟨hNaN, hx⟩ | ⟨_, hZero, hx⟩ | ⟨_, hx⟩
  · have hPattern : x.pattern ≠ 0 := by
      intro h
      simp [isNaN, h] at hNaN
    have hTrue : x.isTrue = true := bne_iff_ne.mpr hPattern
    rw [hx, hTrue]
    decide
  · have hFalse : x.isTrue = false := by simp [isTrue, hZero]
    rw [hx, hFalse]
    decide
  · rw [hx]

theorem truncate_canonical (x : Number) : x.canonical.truncate = x.truncate := by
  unfold truncate
  rw [isNaN_canonical]
  cases hx : x.isNaN with
  | true => rfl
  | false => rw [scaled_canonical hx]

/-- Both zeros are whole and print as an integer. -/
theorem render_of_pattern_eq_zero {x : Number} (h : x.pattern = 0) : x.render = "0" := by
  have hUnits : x.units = 0 := (units_eq_zero_iff x).mpr h
  have hNaN : x.isNaN = false := by simp [isNaN, h]
  have hIntegral : x.isIntegral = true := by
    simp only [isIntegral, isFinite, h, hUnits, Nat.zero_mod]
    decide
  have hSmall : x.units < integerLimit * unitsPerOne := by
    rw [hUnits]
    decide +kernel
  have hTruncate : x.truncate = 0 := by
    simp only [truncate, hNaN, Bool.false_eq_true, if_false, scaled_of_pattern_eq_zero h,
      Int.zero_tdiv]
    decide
  simp only [render, hNaN, Bool.false_eq_true, if_false, hIntegral, hSmall, Bool.true_and,
    decide_true, if_true, hTruncate]
  rfl

/-- A number prints as its canonical form does: NaN without its sign, and negative zero as zero. -/
theorem render_canonical (x : Number) : x.canonical.render = x.render := by
  rcases x.canonical_cases with ⟨hNaN, hx⟩ | ⟨_, hZero, hx⟩ | ⟨_, hx⟩
  · rw [hx, render, if_pos isNaN_nan, render, if_pos hNaN]
  · rw [hx, render_of_pattern_eq_zero hZero]
    exact render_of_pattern_eq_zero rfl
  · rw [hx]

end Number

end DynamicValue
