import DynamicValue.Proofs.Items.Block
import DynamicValue.Proofs.Items.Position

/-!
What one edit does to a list. Every edit but a deletion either fails and leaves the list alone, or
writes a block over it.
-/

namespace DynamicValue

namespace Items

variable (items : Items)

/-- Appending writes a block at the end: one value, or the elements of a list and the list itself
behind them. -/
theorem append_items (value : Value) :
    (items.append value).items =
      (Block.mk items.length (value.items?.getD [] ++ [value])).write items := by
  rw [Block.write_at_end]
  cases value with
  | list inner => exact List.append_assoc items inner _
  | null | number | text => rfl

/-- Even no values at all cannot be inserted into the empty list. -/
theorem insertAt_nil (index : Int) (values : Items) :
    insertAt [] index values =
      ⟨[], Outcome.ofExcept (.error { cause := .arithmeticFault wrappingOperation })⟩ := rfl

/-- Inserting into a list that is not empty always succeeds. It is logged if the block reaches past
the end, and the list then grows up to the end of the block. -/
theorem insertAt_of_pos (h : 0 < items.length) (index : Int) (values : Items) :
    items.insertAt index values =
      let block := Block.mk (index % items.length).toNat values
      ⟨block.write items, if items.length < block.stop then
        Outcome.emit (.spilled index (block.stop - items.length)) else pure ()⟩ := by
  have hStart := toNat_emod_lt index h
  have hLength : items.length = max items.length (index % items.length).toNat := by omega
  simp only [insertAt, normalizeIndex_of_pos index h, writeFrom_eq_write values hLength]
  generalize (index % items.length).toNat = start at hStart
  rw [show start + values.length = (Block.mk start values).stop from rfl]
  by_cases hSpill : items.length < (Block.mk start values).stop
  · rw [if_pos hSpill, if_pos hSpill, Block.length_write (Nat.le_of_lt hStart),
      Nat.max_eq_right (Nat.le_of_lt hSpill)]
  · rw [if_neg hSpill, if_neg hSpill]

/-- A number replaces the element at its truncation if that is within the list, and is a fault
otherwise; it is not wrapped. -/
theorem put_number (x : Number) (value : Value) :
    items.put (.number x) value =
      if 0 ≤ x.truncate ∧ x.truncate < items.length then
        ⟨items.set x.truncate.toNat value, pure true⟩
      else ⟨items, Outcome.ofExcept
        (.error { cause := .indexOutOfRange x.truncate items.length })⟩ := by
  rw [put, position_number]
  by_cases hWithin : 0 ≤ x.truncate ∧ x.truncate < items.length
  · simp only [if_pos hWithin]
  · simp only [if_neg hWithin]

theorem put_of_kind_ne_number {key : Value} (h : key.kind ≠ .number) (value : Value) :
    items.put key value = ⟨items, Outcome.ofExcept
      (.error { cause := .typeMismatch indexContext key.kind.name })⟩ := by
  rw [put, position_of_kind_ne_number items h]

theorem delete_nil (key : Value) : delete [] key = ⟨[], pure false⟩ := by
  cases key <;> rfl

/-- A list that has elements loses one to any number, the wrapped index naming which. -/
theorem delete_of_pos (h : 0 < items.length) (x : Number) :
    items.delete (.number x) =
      ⟨items.eraseIdx (x.truncate % items.length).toNat, pure true⟩ := by
  have hEmpty : items.isEmpty = false := by
    simpa using List.ne_nil_of_length_pos h
  simp only [delete, hEmpty, normalizeIndex_of_pos x.truncate h]
  rfl

/-- Deleting by a key that is no number is refused without a fault, unlike replacing. -/
theorem delete_of_kind_ne_number {key : Value} (h : key.kind ≠ .number) :
    items.delete key = ⟨items, pure false⟩ := by
  cases key with
  | number => exact absurd rfl h
  | null | text | list => rfl

end Items

namespace Edit

theorem run_append (items : Items) (early late : List Edit) :
    run items (early ++ late) = run (run items early) late := List.foldl_append

/-- The block that an edit writes into a list of the given length, if it writes any: values at the
end, where a list comes after its own elements, values at a wrapped index, or one value in place of
an element. -/
def block? (len : Nat) : Edit → Option Block
  | .append value => some ⟨len, value.items?.getD [] ++ [value]⟩
  | .extend values => some ⟨len, values⟩
  | .insertAt index values => if len = 0 then none else some ⟨(index % len).toNat, values⟩
  | .put (.number x) value =>
    if 0 ≤ x.truncate ∧ x.truncate < len then some ⟨x.truncate.toNat, [value]⟩ else none
  | .put _ _ | .delete _ | .subtractFrom _ => none

/-- Blocks begin within the list or at its end, so that they leave no gap. -/
theorem start_le_of_block? {edit : Edit} {len : Nat} {block : Block}
    (h : edit.block? len = some block) : block.start ≤ len := by
  cases edit with
  | append | extend =>
      cases h
      exact Nat.le_refl _
  | insertAt index values =>
      by_cases hEmpty : len = 0
      · simp [block?, hEmpty] at h
      · simp only [block?, if_neg hEmpty, Option.some.injEq] at h
        subst h
        exact Nat.le_of_lt (toNat_emod_lt index (Nat.pos_of_ne_zero hEmpty))
  | put key value =>
      cases key with
      | number x =>
          by_cases hWithin : 0 ≤ x.truncate ∧ x.truncate < len
          · simp only [block?, if_pos hWithin, Option.some.injEq] at h
            subst h
            change x.truncate.toNat ≤ len
            omega
          · simp [block?, hWithin] at h
      | null | text | list => cases h
  | delete | subtractFrom => cases h

/-- An edit that writes a block succeeds and does not answer that it did nothing. -/
theorem apply_of_block?_eq_some {edit : Edit} {items : Items} {block : Block}
    (h : edit.block? items.length = some block) :
    (edit.apply items).items = block.write items ∧
      ∃ answer, (edit.apply items).outcome.result = .ok answer ∧ answer ≠ some false := by
  cases edit with
  | append value =>
      cases h
      refine ⟨items.append_items value, none, ?_, by simp⟩
      cases value <;> rfl
  | extend values =>
      cases h
      exact ⟨(Block.write_at_end items values).symm, none, rfl, by simp⟩
  | insertAt index values =>
      by_cases hEmpty : items.length = 0
      · simp [block?, hEmpty] at h
      · simp only [block?, if_neg hEmpty, Option.some.injEq] at h
        subst h
        rw [apply, Items.insertAt_of_pos items (Nat.pos_of_ne_zero hEmpty)]
        refine ⟨rfl, none, ?_, by simp⟩
        simp only [apply.silent, Outcome.map_result]
        split <;> rfl
  | put key value =>
      cases key with
      | number x =>
          by_cases hWithin : 0 ≤ x.truncate ∧ x.truncate < items.length
          · simp only [block?, if_pos hWithin, Option.some.injEq] at h
            subst h
            rw [apply, Items.put_number, if_pos hWithin, Block.write_singleton items (by omega)]
            exact ⟨rfl, some true, rfl, by simp⟩
          · simp [block?, hWithin] at h
      | null | text | list => cases h
  | delete | subtractFrom => cases h

/-- An edit that writes no block fails, deletions apart, and writes nothing. -/
theorem apply_of_block?_eq_none {edit : Edit} {items : Items}
    (hDelete : ∀ key, edit ≠ .delete key) (h : edit.block? items.length = none) :
    (edit.apply items).items = items ∧
      ∃ fault, (edit.apply items).outcome.result = .error fault := by
  cases edit with
  | append | extend => cases h
  | insertAt index values =>
      cases items with
      | nil => exact ⟨rfl, _, rfl⟩
      | cons => simp [block?] at h
  | put key value =>
      cases key with
      | number x =>
          by_cases hWithin : 0 ≤ x.truncate ∧ x.truncate < items.length
          · simp [block?, hWithin] at h
          · rw [apply, Items.put_number, if_neg hWithin]
            exact ⟨rfl, _, rfl⟩
      | null | text | list => exact ⟨rfl, _, rfl⟩
  | delete key => exact absurd rfl (hDelete key)
  | subtractFrom => exact ⟨rfl, _, rfl⟩

end Edit

end DynamicValue
