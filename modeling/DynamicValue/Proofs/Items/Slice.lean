import DynamicValue.Items.Access
import DynamicValue.Proofs.Items.Machine

/-!
Slices as ranges between two positions. A bound outside the list, on either side, is the position
behind its last element, so every slice is a range within the list, or its bounds are the wrong way
round and it has no elements. Ranges that meet add up, and a range of a range is a range.
-/

namespace DynamicValue

namespace Items

variable {items : Items} {start middle stop : Nat}

theorem sliceBound_le (bound : Int) (len : Nat) : sliceBound bound len ≤ len := by
  unfold sliceBound
  split <;> omega

theorem sliceBound_of_within {bound : Int} {len : Nat} (hLow : 0 ≤ bound) (hHigh : bound ≤ len) :
    (sliceBound bound len : Int) = bound := by
  rw [sliceBound, if_pos ⟨hLow, hHigh⟩]
  omega

/-- As an integer the bound is the one given, or the length in place of it. -/
theorem natCast_sliceBound (bound : Int) (len : Nat) :
    (sliceBound bound len : Int) = if 0 ≤ bound ∧ bound ≤ len then bound else len := by
  unfold sliceBound
  split
  case isTrue hWithin => omega
  case isFalse => rfl

/-- A bound that has been brought into the list is left alone the next time. -/
theorem sliceBound_sliceBound (bound : Int) (len : Nat) :
    sliceBound (sliceBound bound len) len = sliceBound bound len := by
  have hBound := sliceBound_le bound len
  apply Int.ofNat_inj.mp
  exact sliceBound_of_within (by omega) (by omega)

theorem slice_eq_extract (items : Items) (start stop : Int) :
    items.slice start stop =
      items.extract (sliceBound start items.length) (sliceBound stop items.length) := rfl

/-- Bounds within the list are positions. -/
theorem slice_natCast (hStart : start ≤ items.length) (hStop : stop ≤ items.length) :
    items.slice start stop = items.extract start stop := by
  have hFirst : sliceBound start items.length = start :=
    Int.ofNat_inj.mp (sliceBound_of_within (by omega) (by omega))
  have hLast : sliceBound stop items.length = stop :=
    Int.ofNat_inj.mp (sliceBound_of_within (by omega) (by omega))
  rw [slice_eq_extract, hFirst, hLast]

theorem extract_of_le (h : stop ≤ start) : items.extract start stop = [] := by
  rw [List.extract_eq_take_drop, Nat.sub_eq_zero_of_le h, List.take_zero]

/-- Two ranges that adjoin make up the range over both. -/
theorem extract_append_extract (hFirst : start ≤ middle) (hSecond : middle ≤ stop) :
    items.extract start middle ++ items.extract middle stop = items.extract start stop := by
  have hLength : stop - start = (middle - start) + (stop - middle) := by omega
  have hDrop : items.drop middle = (items.drop start).drop (middle - start) := by
    rw [List.drop_drop]
    congr 1
    omega
  simp only [List.extract_eq_take_drop]
  rw [hLength, List.take_add, hDrop]

/-- A range within a range counts its bounds from where the outer one begins. It has to end where
the outer one does, or ahead of it, or it would be cut short. -/
theorem extract_extract {first last : Nat} (h : start + last ≤ stop) :
    (items.extract start stop).extract first last =
      items.extract (start + first) (start + last) := by
  have hShift : start + last - (start + first) = last - first := by omega
  simp only [List.extract_eq_take_drop]
  rw [List.drop_take, List.take_take, List.drop_drop, hShift]
  congr 1
  omega

theorem getElem?_extract {i : Nat} (h : start + i < stop) :
    (items.extract start stop)[i]? = items[start + i]? := by
  rw [List.extract_eq_take_drop, List.getElem?_take_of_lt (by omega), List.getElem?_drop]

/-- A range that ends within the list has as many elements as its bounds are apart. -/
theorem length_extract (hStop : stop ≤ items.length) :
    (items.extract start stop).length = stop - start := by
  rw [List.extract_eq_take_drop, List.length_take, List.length_drop]
  omega

/-- The elements of a range, which has to lie within the list and must not end before it starts. -/
def extract? (items : Items) (start stop : Nat) : Option Items :=
  if start ≤ stop ∧ stop ≤ items.length then some (items.extract start stop) else none

/-- A bound as an unsigned word, with the length in its place if it is none or is greater. -/
def wordBound (bound : Int64) (len : Nat) : Nat :=
  (((word? bound.toInt).map UInt64.toNat).filter (· ≤ len)).getD len

/-- Slicing the list that is the state, by bounds that are signed words. There is no result if
anything outside the list is read. -/
def sliceWords (start stop : Int64) : StateT Items Option Items := do
  let items : Items ← StateT.get
  let first := wordBound start items.length
  let last := wordBound stop items.length
  if last < first then return []
  items.extract? first last

/-- A bound in machine words comes to the bound in integers. One that is below zero is no unsigned
word, and one past the end is found to be so by the comparison with the length. -/
theorem wordBound_eq (bound : Int64) (len : Nat) :
    wordBound bound len = sliceBound bound.toInt len := by
  have hUpper := bound.toInt_lt
  by_cases hSign : 0 ≤ bound.toInt
  · have hWord : bound.toInt.toNat < UInt64.size := by
      simp only [UInt64.size]
      omega
    have hSome : word? bound.toInt = some (UInt64.ofNat bound.toInt.toNat) :=
      if_pos ⟨hSign, by simp only [UInt64.size]; omega⟩
    rw [wordBound, hSome, Option.map_some, UInt64.toNat_ofNat_of_lt' hWord, sliceBound]
    by_cases hWithin : bound.toInt.toNat ≤ len
    · rw [if_pos (by omega), Option.filter_some, if_pos (by simpa using hWithin), Option.getD_some]
    · rw [if_neg (by omega), Option.filter_some, if_neg (by simpa using hWithin), Option.getD_none]
  · have hNone : word? bound.toInt = none := if_neg (by omega)
    rw [wordBound, hNone, sliceBound, if_neg (by omega)]
    rfl

/-- Nothing outside the list is read, and the list stays as it is. -/
theorem run_sliceWords (items : Items) (start stop : Int64) :
    (sliceWords start stop).run items = some (items.slice start.toInt stop.toInt, items) := by
  have hStop := sliceBound_le stop.toInt items.length
  have hRun : (sliceWords start stop).run items =
      if sliceBound stop.toInt items.length < sliceBound start.toInt items.length then
        some ([], items)
      else (items.extract? (sliceBound start.toInt items.length)
        (sliceBound stop.toInt items.length)).map (·, items) := by
    simp only [← wordBound_eq]
    change StateT.run (if _ then _ else _) items = _
    split
    · rfl
    · cases items.extract? _ _ <;> rfl
  rw [hRun, slice_eq_extract]
  split
  case isTrue hReversed => rw [extract_of_le (Nat.le_of_lt hReversed)]
  case isFalse hOrdered => rw [extract?, if_pos ⟨by omega, hStop⟩, Option.map_some]

/-- Slices that meet make up one slice, if the bounds are in order once they are positions. -/
theorem slice_append_slice {start middle stop : Int}
    (hFirst : sliceBound start items.length ≤ sliceBound middle items.length)
    (hSecond : sliceBound middle items.length ≤ sliceBound stop items.length) :
    items.slice start middle ++ items.slice middle stop = items.slice start stop := by
  simp only [slice_eq_extract]
  exact extract_append_extract hFirst hSecond

/-- A list cut in two at any bound. One outside the list cuts it at the end. -/
theorem slice_append_rest (items : Items) (bound : Int) :
    items.slice 0 bound ++ items.slice bound items.length = items := by
  have hStart : sliceBound 0 items.length = 0 :=
    Int.ofNat_inj.mp (sliceBound_of_within (by omega) (by omega))
  have hStop : sliceBound items.length items.length = items.length :=
    Int.ofNat_inj.mp (sliceBound_of_within (by omega) (by omega))
  have hBound := sliceBound_le bound items.length
  rw [slice_append_slice (by omega) (by omega), slice_eq_extract, hStart, hStop,
    List.extract_eq_take_drop, List.drop_zero, Nat.sub_zero, List.take_length]

/-- A slice of a slice is a slice of the list, with bounds counted from where the outer one begins.
The bounds have to be in order and within the outer slice. -/
theorem slice_slice (hOrder : start ≤ stop) (hStop : stop ≤ items.length) {first last : Nat}
    (hLast : last ≤ stop - start) (hInner : first ≤ last) :
    (items.slice start stop).slice first last =
      items.slice (start + first : Nat) (start + last : Nat) := by
  have hLength : (items.extract start stop).length = stop - start := length_extract hStop
  rw [slice_natCast (by omega) hStop, slice_natCast (by omega) (by omega),
    slice_natCast (by omega) (by omega), extract_extract (by omega)]

end Items

open Items in
/-- The bounds of a slice are positions as far as they are within the list, and its end on either
side of it. A slice with its bounds the wrong way round is empty, slices that meet make up one, so
that any bound cuts a list into two parts of which it consists, and a slice of a slice is one of the
list, with the same elements. Computed in machine words, a slice never reads outside the list, and
leaves it as it is. -/
theorem slice_algebra (items : Items) :
    let n : Int := items.length
    let c (bound : Int) : Int := if 0 ≤ bound ∧ bound ≤ n then bound else n
    (∀ f t, items.slice f t = items.slice (c f) (c t) ∧ (c t < c f → items.slice f t = [])) ∧
    (∀ f m t, c f ≤ c m → c m ≤ c t →
      items.slice f m ++ items.slice m t = items.slice f t) ∧
    (∀ k, items.slice 0 k ++ items.slice k n = items) ∧
    (∀ i j, 0 ≤ i → i ≤ j → j ≤ n →
      (∀ x y, 0 ≤ x → x ≤ y → y ≤ j - i →
        (items.slice i j).slice x y = items.slice (i + x) (i + y)) ∧
      (∀ x : Nat, x < j - i → ∃ v, (items.slice i j)[x]? = some v ∧ items[i.toNat + x]? = some v)) ∧
    (∀ f t : Int64, (sliceWords f t).run items = some (items.slice f.toInt t.toInt, items)) := by
  intro n c
  have hBound (bound : Int) : (sliceBound bound items.length : Int) = c bound :=
    natCast_sliceBound bound items.length
  refine ⟨?_, ?_, items.slice_append_rest, ?_, items.run_sliceWords⟩
  · intro f t
    refine ⟨?_, fun h => ?_⟩
    · rw [← hBound, ← hBound, slice_eq_extract, slice_eq_extract, sliceBound_sliceBound,
        sliceBound_sliceBound]
    · rw [← hBound, ← hBound] at h
      exact extract_of_le (by omega)
  · intro f m t hFirst hSecond
    rw [← hBound, ← hBound] at hFirst hSecond
    exact slice_append_slice (by omega) (by omega)
  · intro i j hLow hOrder hHigh
    obtain ⟨start, rfl⟩ := Int.eq_ofNat_of_zero_le hLow
    obtain ⟨stop, rfl⟩ := Int.eq_ofNat_of_zero_le (Int.le_trans hLow hOrder)
    refine ⟨?_, ?_⟩
    · intro x y hFirst hInner hLast
      obtain ⟨first, rfl⟩ := Int.eq_ofNat_of_zero_le hFirst
      obtain ⟨last, rfl⟩ := Int.eq_ofNat_of_zero_le (Int.le_trans hFirst hInner)
      exact slice_slice (by omega) (by omega) (by omega) (by omega)
    · intro x hx
      have hLess : start + x < items.length := by omega
      refine ⟨items[start + x], ?_, List.getElem?_eq_getElem hLess⟩
      rw [slice_natCast (by omega) (by omega), getElem?_extract (by omega)]
      exact List.getElem?_eq_getElem hLess

/-- A bound below zero and one past the end both stand for the end. -/
theorem slice_algebra_outside :
    let items : Items := [.null, .text "a", .text "b", .list []]
    items.slice (-1) 2 = [] ∧ items.slice 1 (-5) ++ items.slice (-5) 99 = items.slice 1 99 ∧
      (items.slice 1 4).slice 1 3 = items.slice 2 4 ∧
      ∃ v, (items.slice 1 4)[2]? = some v ∧ items[3]? = some v := by
  intro items
  obtain ⟨hBounds, hMeet, _, hInner, _⟩ := slice_algebra items
  obtain ⟨hSlice, hElement⟩ := hInner 1 4 (by decide) (by decide) (by decide)
  exact ⟨(hBounds (-1) 2).2 (by decide), hMeet 1 (-5) 99 (by decide) (by decide),
    hSlice 1 3 (by decide) (by decide) (by decide), hElement 2 (by decide)⟩

end DynamicValue
