import DynamicValue.Items.Edit

/-!
Blocks of values written over a list, from a position within the list or at its end. Nothing moves:
what a block does not cover stays where it is, and the list grows by what reaches past its end.
-/

namespace DynamicValue

/-- Values that stand side by side from a position on. -/
structure Block where
  start : Nat
  values : Items

namespace Block

/-- The position just behind the block. -/
def stop (block : Block) : Nat := block.start + block.values.length

def Covers (block : Block) (p : Nat) : Prop := block.start ≤ p ∧ p < block.stop

/-- The list with the block over it, and longer if the block reaches past the end. -/
def write (block : Block) (items : Items) : Items :=
  items.take block.start ++ block.values ++ items.drop block.stop

variable {block : Block} {items : Items}

/-- The block lies over the list and makes it longer only as far as it reaches past the end. A block
that began behind the end would leave a gap, and that is excluded here. -/
theorem length_write (h : block.start ≤ items.length) :
    (block.write items).length = max items.length block.stop := by
  simp only [write, stop, List.length_append, List.length_take, List.length_drop]
  omega

/-- Under a block stand its values, counted from where it begins. -/
theorem getElem?_write_of_covers (h : block.start ≤ items.length) {p : Nat}
    (hCovers : block.Covers p) : (block.write items)[p]? = block.values[p - block.start]? := by
  obtain ⟨hStart, hStop⟩ := hCovers
  have hTake : (items.take block.start).length = block.start := List.length_take_of_le h
  rw [stop] at hStop
  rw [write, List.append_assoc, List.getElem?_append_right (by omega), hTake,
    List.getElem?_append_left (by omega)]

/-- What is not under a block stays where it is, and behind the end there is nothing still. -/
theorem getElem?_write_of_not_covers (h : block.start ≤ items.length) {p : Nat}
    (hCovers : ¬ block.Covers p) : (block.write items)[p]? = items[p]? := by
  have hTake : (items.take block.start).length = block.start := List.length_take_of_le h
  rw [write, List.append_assoc]
  by_cases hStart : p < block.start
  · rw [List.getElem?_append_left (by omega), List.getElem?_take_of_lt hStart]
  · have hStop : block.start + block.values.length ≤ p :=
      Nat.le_of_not_lt fun hLess => hCovers ⟨Nat.le_of_not_lt hStart, hLess⟩
    rw [List.getElem?_append_right (by omega), List.getElem?_append_right (by omega),
      List.getElem?_drop, hTake, stop]
    congr 1
    omega

/-- A block at the end is appended. -/
theorem write_at_end (items values : Items) :
    (Block.mk items.length values).write items = items ++ values := by
  simp [write, stop]

/-- A block of one value replaces an element. -/
theorem write_singleton (items : Items) {i : Nat} (h : i < items.length) (value : Value) :
    (Block.mk i [value]).write items = items.set i value := by
  rw [write, List.set_eq_take_append_cons_drop, if_pos h, List.append_assoc]
  rfl

/-- Two blocks that adjoin are written one after the other. -/
theorem write_append {start : Nat} (h : start ≤ items.length) (first second : Items) :
    (Block.mk start (first ++ second)).write items =
      (Block.mk (start + first.length) second).write ((Block.mk start first).write items) := by
  have hHead : (items.take start ++ first).length = start + first.length := by
    rw [List.length_append, List.length_take_of_le h]
  simp only [write, stop, List.length_append]
  rw [List.take_left' hHead, ← Nat.add_assoc, ← hHead, List.drop_append, List.drop_drop]
  simp [List.append_assoc]

end Block

/-- Writing value by value is writing the block. The list is as long as the larger of the position
and the bound from start to end: up to the bound elements are replaced, then the list grows. -/
theorem Items.writeFrom_eq_write {items : Items} {bound pos : Nat} (values : Items)
    (h : items.length = max bound pos) :
    items.writeFrom bound pos values = (Block.mk pos values).write items := by
  induction values generalizing items pos with
  | nil => simp [writeFrom, Block.write, Block.stop]
  | cons value values ih =>
      have hPos : pos ≤ items.length := by omega
      have hWritten : (if pos < bound then items.set pos value else items ++ [value]) =
          (Block.mk pos [value]).write items := by
        split
        · rw [Block.write_singleton items (by omega)]
        · have hEnd : pos = items.length := by omega
          rw [hEnd, Block.write_at_end]
      have hLength : ((Block.mk pos [value]).write items).length = max bound (pos + 1) := by
        rw [Block.length_write hPos]
        change max items.length (pos + 1) = _
        omega
      rw [writeFrom, hWritten, ih hLength]
      exact (Block.write_append hPos [value] values).symm

end DynamicValue
