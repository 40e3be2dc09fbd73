import DynamicValue.Proofs.Items.Membership

/-!
Insertion as an overlay. The values lie over the elements from the wrapped index on, and those that
reach past the end of the list are its new end. Whether a position is compared with the length from
before the insertion, or with the length as the list grows, is all the same; an insertion of two
parts is two insertions, the second one an extension where the first has reached the end.
-/

namespace DynamicValue

namespace Items

/-- Writes the values one after the other from position `pos` on, over an element as long as the
list has one there by then, and to the end of the list otherwise. -/
def writeGrowing (pos : Nat) (items : Items) : List Value → Items
  | [] => items
  | value :: values =>
    let written := if pos < items.length then items.set pos value else items ++ [value]
    writeGrowing (pos + 1) written values

/-- One step of an insertion: below the bound it replaces an element, and has no result if the list
as it stands has none there; from the bound on it makes the list longer. -/
def write? (items : Items) (bound pos : Nat) (value : Value) : Option Items :=
  if pos < bound then
    if pos < items.length then some (items.set pos value) else none
  else some (items ++ [value])

/-- Writes the values as an insertion does, with no result if a step has none. -/
def writeFrom? (bound pos : Nat) (items : Items) : List Value → Option Items
  | [] => some items
  | value :: values => do
    let written ← items.write? bound pos value
    writeFrom? bound (pos + 1) written values

variable {items : Items} {bound pos : Nat}

/-- The list is as long as the larger of the bound and the position, and stays so. -/
theorem length_written (value : Value) (h : items.length = max bound pos) :
    (if pos < bound then items.set pos value else items ++ [value]).length =
      max bound (pos + 1) := by
  split
  · rw [List.length_set]
    omega
  · rw [List.length_append, List.length_singleton]
    omega

/-- The position is below the bound just if it is within the list as it stands. -/
theorem writeFrom_eq_writeGrowing (values : Items) (h : items.length = max bound pos) :
    items.writeFrom bound pos values = items.writeGrowing pos values := by
  induction values generalizing items pos with
  | nil => rfl
  | cons value values ih =>
      have hWithin : pos < bound ↔ pos < items.length := by omega
      rw [writeFrom, writeGrowing, ih (length_written value h)]
      simp only [hWithin]

/-- While the list is as long as the larger of bound and position, a step finds the element that it
replaces, and has a result. -/
theorem write?_eq_some (value : Value) (h : items.length = max bound pos) :
    items.write? bound pos value =
      some (if pos < bound then items.set pos value else items ++ [value]) := by
  rw [write?]
  split
  · exact if_pos (by omega)
  · rfl

/-- Every element that an insertion replaces is there. -/
theorem writeFrom?_eq_some (values : Items) (h : items.length = max bound pos) :
    items.writeFrom? bound pos values = some (items.writeFrom bound pos values) := by
  induction values generalizing items pos with
  | nil => rfl
  | cons value values ih =>
      rw [writeFrom?, writeFrom, write?_eq_some value h, ← ih (length_written value h)]
      rfl

/-- What an insertion leaves is a block over the list, from the wrapped index on. -/
theorem insertAt_items (h : 0 < items.length) (index : Int) (values : Items) :
    (items.insertAt index values).items =
      (Block.mk (index % items.length).toNat values).write items := by
  rw [insertAt_of_pos items h]

theorem insertAt_result (h : 0 < items.length) (index : Int) (values : Items) :
    (items.insertAt index values).outcome.result = .ok () := by
  rw [insertAt_of_pos items h]
  dsimp only
  split <;> rfl

/-- A position within the list is its own wrapped index. -/
theorem insertAt_natCast_items (h : pos < items.length) (values : Items) :
    (items.insertAt (pos : Nat) values).items = (Block.mk pos values).write items := by
  have hIndex : (pos : Int) % items.length = pos :=
    Int.emod_eq_of_lt (Int.natCast_nonneg pos) (Int.ofNat_lt.mpr h)
  rw [insertAt_items (Nat.zero_lt_of_lt h), hIndex, Int.toNat_natCast]

/-- What comes before a block, the block, and what it leaves of the rest. -/
theorem write_eq_overlay (start : Nat) (values : Items) :
    (Block.mk start values).write items =
      items.take start ++ values ++ items.drop (min (start + values.length) items.length) := by
  rw [Block.write, Block.stop]
  rcases Nat.le_total (start + values.length) items.length with hInside | hPast
  · rw [Nat.min_eq_left hInside]
  · rw [Nat.min_eq_right hPast, List.drop_eq_nil_of_le hPast, List.drop_length]

/-- A block in two parts, where the second one begins within the list that the first one leaves, or
at its end. -/
theorem write_parts (h : pos < items.length) (early late : Items) :
    let first := (Block.mk pos early).write items
    (pos + early.length < first.length →
      (first.insertAt (pos + early.length : Nat) late).outcome.result = .ok () ∧
      (first.insertAt (pos + early.length : Nat) late).items =
        (Block.mk pos (early ++ late)).write items) ∧
    (first.length ≤ pos + early.length →
      (first.extend late).items = (Block.mk pos (early ++ late)).write items) := by
  intro first
  have hPos := Nat.le_of_lt h
  have hLength : first.length = max items.length (pos + early.length) := Block.length_write hPos
  -- the two parts are two blocks, of which the second begins where the first one stops
  rw [Block.write_append hPos]
  refine ⟨fun hInside => ⟨insertAt_result (Nat.zero_lt_of_lt hInside) _ late,
    insertAt_natCast_items hInside late⟩, fun hPast => ?_⟩
  have hEnd : pos + early.length = first.length := by omega
  rw [hEnd]
  exact (Block.write_at_end first late).symm

end Items

open Items in
/-- Inserting into a list that is not empty succeeds. The values lie over the elements from the
wrapped index on, which makes the list as long as they reach, and no element is replaced that is not
there; comparing each position with the length as the list grows comes to the same. A single value
never makes the list longer: it replaces the element that the wrapped index, as a key, addresses. Of
values in two parts the second one is inserted behind the first, or put at the end if the first one
has reached it. -/
theorem insertAt_overlays {items : Items} (h : items ≠ []) (index : Int) (values : Items) :
    let start := (index % items.length).toNat
    let result := (items.insertAt index values).items
    (start < items.length ∧ (start : Int) = index % items.length) ∧
    (items.insertAt index values).outcome.result = .ok () ∧
    result = items.take start ++ values ++
      items.drop (min (start + values.length) items.length) ∧
    result.length = max items.length (start + values.length) ∧
    result = items.writeGrowing start values ∧
    items.writeFrom? items.length start values = some result ∧
    (∀ value, (items.insertAt index [value]).items.length = items.length ∧
      (items.length ≤ Number.exactLimit →
        items.put (.number (.ofNat start)) value =
          ⟨(items.insertAt index [value]).items, pure true⟩)) ∧
    (∀ early late, values = early ++ late →
      let first := (items.insertAt index early).items
      (start + early.length < first.length →
        (first.insertAt (start + early.length : Nat) late).outcome.result = .ok () ∧
        (first.insertAt (start + early.length : Nat) late).items = result) ∧
      (first.length ≤ start + early.length → (first.extend late).items = result)) := by
  intro start result
  have hPositive : 0 < items.length := List.length_pos_iff.mpr h
  have hStart : start < items.length := toNat_emod_lt index hPositive
  have hLength : items.length = max items.length start := by omega
  have hResult : result = (Block.mk start values).write items :=
    insertAt_items hPositive index values
  have hWritten : items.writeFrom items.length start values = result := by
    rw [hResult, writeFrom_eq_write values hLength]
  refine ⟨⟨hStart, natCast_toNat_emod index hPositive⟩, insertAt_result hPositive index values,
    ?_, ?_, ?_, ?_, ?_, ?_⟩
  · rw [hResult, write_eq_overlay]
  · rw [hResult, Block.length_write (Nat.le_of_lt hStart)]
    rfl
  · rw [← hWritten, writeFrom_eq_writeGrowing values hLength]
  · rw [← hWritten, writeFrom?_eq_some values hLength]
  · intro value
    rw [insertAt_items hPositive, Block.write_singleton items hStart]
    exact ⟨List.length_set, fun hExact => put_ofNat hExact hStart value⟩
  · rintro early late rfl
    rw [hResult, insertAt_items hPositive]
    exact write_parts hStart early late

/-- Of three values that are inserted at the last element but one, the third one goes past the end,
where the first two are an insertion of their own that ends with the list. -/
theorem insertAt_overlays_spill :
    let items : Items := [.null, .text "a", .text "b"]
    let values : Items := [.number .zero, .null, .text "c"]
    items ≠ [] ∧
      (items.insertAt (-2) values).items = [.null, .number .zero, .null, .text "c"] ∧
      (items.insertAt (-2) values).items.length = 4 ∧
      ((items.insertAt (-2) [.number .zero, .null]).items.extend [.text "c"]).items =
        (items.insertAt (-2) values).items := by
  intro items values
  have hItems : items ≠ [] := by simp [items]
  obtain ⟨_, _, hOverlay, hLength, _, _, _, hParts⟩ := insertAt_overlays hItems (-2) values
  exact ⟨hItems, hOverlay, hLength,
    (hParts [.number .zero, .null] [.text "c"] rfl).2 (by decide)⟩

end DynamicValue
