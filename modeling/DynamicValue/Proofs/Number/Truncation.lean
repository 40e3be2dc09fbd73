import DynamicValue.Proofs.Number.Count
import DynamicValue.Proofs.Number.Nearest

/-!
Truncation by what it leaves of a number: the integer farthest from zero among those that have 64
bits and that the number reaches. Dropping the fraction and stopping at the bounds of the range both
follow from this.
-/

namespace DynamicValue

namespace Number

/-- The number is at least as far from zero as the integer, and the integer is zero or on the same
side of it. -/
def Reaches (x : Number) (n : Int) : Prop :=
  n.natAbs * unitsPerOne ≤ x.units ∧ if x.negative then n ≤ 0 else 0 ≤ n

/-- What a number is truncated to. NaN has zero, and any other number the farthest integer of 64
bits that it reaches. -/
structure TruncatesTo (x : Number) (n : Int) : Prop where
  nan : x.isNaN = true → n = 0
  inRange : minInteger ≤ n ∧ n ≤ maxInteger
  reached : x.isNaN = false → x.Reaches n
  farthest : x.isNaN = false →
    ∀ m, minInteger ≤ m → m ≤ maxInteger → x.Reaches m → m.natAbs ≤ n.natAbs

/-- A number reaches as many integers on its side of zero as it has whole ones. -/
theorem reaches_iff (x : Number) (n : Int) :
    x.Reaches n ↔ n.natAbs ≤ x.count ∧ if x.negative then n ≤ 0 else 0 ≤ n := by
  rw [Reaches, count, Nat.le_div_iff_mul_le unitsPerOne_pos]

/-- The quotient toward zero is the count with the sign of the number: dividing the magnitude drops
the fraction. -/
theorem tdiv_scaled (x : Number) :
    x.scaled.tdiv unitsPerOne = if x.negative then -(x.count : Int) else x.count := by
  rw [scaled, count, Int.ofNat_tdiv]
  split
  · exact Int.neg_tdiv _ _
  · rfl

theorem truncate_of_isNaN {x : Number} (h : x.isNaN = true) : x.truncate = 0 := if_pos h

/-- Away from NaN, truncation takes the whole units of the magnitude with the sign of the number, as
far as the 64-bit range goes. -/
theorem truncate_of_not_isNaN {x : Number} (h : x.isNaN = false) :
    x.truncate =
      max minInteger (min maxInteger (if x.negative then -(x.count : Int) else x.count)) := by
  rw [truncate, if_neg (by simp [h]), tdiv_scaled]

/-- Truncation ends within the 64-bit range from everywhere, NaN and infinities included. -/
theorem truncate_inRange (x : Number) : minInteger ≤ x.truncate ∧ x.truncate ≤ maxInteger := by
  cases h : x.isNaN with
  | true =>
      rw [truncate_of_isNaN h]
      decide
  | false =>
      have hRange : minInteger ≤ maxInteger := by decide
      rw [truncate_of_not_isNaN h]
      omega

/-- Stopping at a bound of the range comes before the number is reached, and goes as far as any
integer within the range. -/
theorem truncatesTo_truncate (x : Number) : x.TruncatesTo x.truncate := by
  refine ⟨truncate_of_isNaN, x.truncate_inRange, ?_, ?_⟩
  · intro h
    rw [reaches_iff, truncate_of_not_isNaN h]
    simp only [minInteger, maxInteger]
    cases x.negative
    · simp only [Bool.false_eq_true, if_false]
      omega
    · simp only [if_true]
      omega
  · intro h m hMin hMax hReached
    rw [reaches_iff] at hReached
    rw [truncate_of_not_isNaN h]
    simp only [minInteger, maxInteger] at hMin hMax ⊢
    cases hSign : x.negative
    · simp only [hSign, Bool.false_eq_true, if_false] at hReached ⊢
      omega
    · simp only [hSign, if_true] at hReached ⊢
      omega

/-- There is only one integer that a number is truncated to. -/
theorem TruncatesTo.unique {x : Number} {m n : Int} (hm : x.TruncatesTo m)
    (hn : x.TruncatesTo n) : m = n := by
  cases h : x.isNaN with
  | true => rw [hm.nan h, hn.nan h]
  | false =>
      have hAbove := hm.farthest h n hn.inRange.1 hn.inRange.2 (hn.reached h)
      have hBelow := hn.farthest h m hm.inRange.1 hm.inRange.2 (hm.reached h)
      have hSide := (hm.reached h).2
      have hSide' := (hn.reached h).2
      cases hSign : x.negative
      · simp only [hSign, Bool.false_eq_true, if_false] at hSide hSide'
        omega
      · simp only [hSign, if_true] at hSide hSide'
        omega

/-- The integer that a number is truncated to is the only one that meets the specification. -/
theorem truncatesTo_iff (x : Number) (n : Int) : x.TruncatesTo n ↔ n = x.truncate := by
  constructor
  · intro h
    exact h.unique x.truncatesTo_truncate
  · rintro rfl
    exact x.truncatesTo_truncate

end Number

end DynamicValue
