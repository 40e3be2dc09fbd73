import DynamicValue.Number.Shortest
import DynamicValue.Proofs.Number.Nearest

/-!
The shortest decimal reads back. So does every candidate, by the test it passed, and so does the
exact value behind the candidates; zeros at the end of the digits make no difference to the rounding.
-/

namespace DynamicValue

theorem Decimal.denominator_pos (d : Decimal) : 0 < d.denominator := Nat.pow_pos (by decide)

namespace Number

/-- A zero less at the end of the digits, with the exponent one up, is the same fraction or the
same fraction reduced by ten. -/
theorem nearestPattern_shorten (digits : Nat) (exponent : Int) :
    nearestPattern (Decimal.mk digits (exponent + 1)).numerator
        (Decimal.mk digits (exponent + 1)).denominator =
      nearestPattern (Decimal.mk (10 * digits) exponent).numerator
        (Decimal.mk (10 * digits) exponent).denominator := by
  rcases exponent with zeros | last
  · have hScale : ((zeros : Int) + 1).toNat = zeros + 1 := by omega
    have hNone : (-((zeros : Int) + 1)).toNat = (-(zeros : Int)).toNat := by omega
    have hNumerator : digits * Nat.pow 10 (zeros + 1) = 10 * digits * Nat.pow 10 zeros := by
      rw [Nat.mul_comm 10 digits, Nat.mul_assoc]
      congr 1
      exact Nat.pow_succ'
    simp only [Decimal.numerator, Decimal.denominator, Int.ofNat_eq_natCast, hScale, hNone,
      hNumerator, Int.toNat_natCast]
  · have hNone : (Int.negSucc last + 1).toNat = 0 := by omega
    have hScale : (-(Int.negSucc last + 1)).toNat = last := by omega
    have hDenominator : Nat.pow 10 (last + 1) = 10 * Nat.pow 10 last := Nat.pow_succ'
    simp only [Decimal.numerator, Decimal.denominator, hNone, hScale]
    have hFactor := nearestPattern_mul (by decide : 0 < 10) digits (Nat.pow 10 last)
    rw [← hDenominator] at hFactor
    simpa using hFactor.symm

/-- Zeros at the end make no difference to what a decimal is rounded to. -/
theorem readsBack_trim (p : Nat) (d : Decimal) : readsBack p d.trim = readsBack p d := by
  fun_induction Decimal.trim d with
  | case1 d hZero ih =>
      have hDigits : 10 * (d.digits / 10) = d.digits := by omega
      have hShorten := nearestPattern_shorten (d.digits / 10) d.exponent
      rw [hDigits] at hShorten
      rw [ih, readsBack, readsBack, hShorten]
  | case2 d hNonzero => rfl

/-- Whichever of the two neighbours is chosen, it has been found to round back. -/
theorem readsBack_of_nearerOf? {p : Nat} {lower upper d : Decimal} {lowerIsNearer : Bool}
    (h : nearerOf? p lower upper lowerIsNearer = some d) : readsBack p d = true := by
  unfold nearerOf? at h
  split at h
  case isTrue hLower =>
    cases h
    exact (Bool.and_eq_true_iff.mp hLower).1
  case isFalse =>
    split at h
    case isTrue hUpper =>
      cases h
      exact hUpper
    case isFalse => cases h

theorem readsBack_of_candidate? {p count : Nat} {d : Decimal} (h : candidate? p count = some d) :
    readsBack p d = true :=
  readsBack_of_nearerOf? h

/-- The exact value of a pattern rounds to the pattern, infinity as the power of two behind the
largest double included. -/
theorem readsBack_exactDecimal {p : Nat} (h : p ≤ infinityPattern) :
    readsBack p (exactDecimal p) = true := by
  have hTens (n : Nat) : unitsOf p * Nat.pow 5 n * 1 <<< n = unitsOf p * Nat.pow 10 n := by
    rw [Nat.one_shiftLeft, Nat.mul_assoc]
    exact congrArg (unitsOf p * ·) (Nat.mul_pow 5 2 n).symm
  have hPlaces : (-(exactDecimal p).exponent).toNat = 1074 := rfl
  have hNumerator : (exactDecimal p).numerator = (exactDecimal p).digits := by
    rw [Decimal.numerator]
    exact Nat.mul_one _
  rw [readsBack, beq_iff_eq]
  apply nearestPattern_of_exact (Decimal.denominator_pos _) _ h
  rw [hNumerator, Decimal.denominator, hPlaces, exactDecimal, unitsPerOne]
  generalize 1074 = n
  exact hTens n

/-- What is printed for a finite magnitude rounds back to it. -/
theorem readsBack_shortest {p : Nat} (h : p ≤ infinityPattern) :
    readsBack p (shortest p) = true := by
  rw [shortest, readsBack_trim]
  cases hFound : (List.range 17).findSome? fun i => candidate? p (i + 1) with
  | none => exact readsBack_exactDecimal h
  | some d =>
      obtain ⟨i, _, hCandidate⟩ := List.exists_of_findSome?_eq_some hFound
      exact readsBack_of_candidate? hCandidate

end Number

end DynamicValue
