import DynamicValue.Items.Index

/-!
Which position an index stands for. Wrapped around, it is the remainder by the length; taken as it
is, it has to be within the list, and the key that names it has to be a number.
-/

namespace DynamicValue

theorem normalizeIndex_zero (index : Int) :
    normalizeIndex index 0 = .error { cause := .arithmeticFault wrappingOperation } := rfl

/-- Moving an index up by multiples of the length does not change its remainder, and an index
within the list is its own. -/
theorem normalizeIndex_of_pos (index : Int) {len : Nat} (h : 0 < len) :
    normalizeIndex index len = .ok (index % len).toNat := by
  rw [normalizeIndex, if_neg (Nat.ne_of_gt h)]
  split
  · rename_i hWithin
    rw [Int.emod_eq_of_lt hWithin.1 hWithin.2]
  · rw [shiftedIndex, Int.add_mul_emod_self_right]

theorem toNat_emod_lt (index : Int) {len : Nat} (h : 0 < len) : (index % len).toNat < len := by
  have hNonneg := Int.emod_nonneg index (Int.natCast_ne_zero.mpr (Nat.ne_of_gt h))
  have hLess := Int.emod_lt_of_pos index (Int.natCast_pos.mpr h)
  omega

/-- A remainder has no sign to lose. -/
theorem natCast_toNat_emod (index : Int) {len : Nat} (h : 0 < len) :
    ((index % len).toNat : Int) = index % len :=
  Int.toNat_of_nonneg (Int.emod_nonneg index (Int.natCast_ne_zero.mpr (Nat.ne_of_gt h)))

namespace Items

/-- A number addresses its truncation without wrapping; what is outside the list is a fault that
names the index and the length. -/
theorem position_number (items : Items) (x : Number) :
    items.position (.number x) =
      if 0 ≤ x.truncate ∧ x.truncate < items.length then .ok x.truncate.toNat
      else .error { cause := .indexOutOfRange x.truncate items.length } := by
  change (if inBounds x.truncate items.length = true then .ok x.truncate.toNat
    else .error { cause := .indexOutOfRange x.truncate items.length } : Except Fault Nat) = _
  simp only [inBounds, Bool.and_eq_true, decide_eq_true_eq]

theorem position_of_kind_ne_number (items : Items) {key : Value} (h : key.kind ≠ .number) :
    items.position key = .error { cause := .typeMismatch indexContext key.kind.name } := by
  cases key with
  | number => exact absurd rfl h
  | null | text | list => rfl

end Items

end DynamicValue
