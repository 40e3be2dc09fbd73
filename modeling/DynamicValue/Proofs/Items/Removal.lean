import DynamicValue.Proofs.Items.Array

/-!
Deleting by a number. Any number takes one element out of a list that has some: the one at the
position that the truncated number wraps around to, which is the element it reads where it can be
read by it. What stands behind moves up by one. A run of deletions therefore shortens the list by
one each time, until nothing is left.
-/

namespace DynamicValue

namespace Items

variable {items : Items} {x y : Number} {p : Nat}

/-- A deletion joins what stands ahead of the wrapped position to what stands behind it. -/
theorem delete_eq_take_append_drop (h : 0 < items.length)
    (hp : (p : Int) = x.truncate % items.length) :
    items.delete (.number x) = ⟨items.take p ++ items.drop (p + 1), pure true⟩ := by
  rw [delete_of_pos items h, ← hp, Int.toNat_natCast, List.eraseIdx_eq_take_drop_succ]

/-- Elements ahead of the wrapped position stay, and those behind it move up by one. -/
theorem getElem?_delete (h : 0 < items.length) (hp : (p : Int) = x.truncate % items.length)
    (q : Nat) : (items.delete (.number x)).items[q]? = items[if q < p then q else q + 1]? := by
  rw [delete_of_pos items h, ← hp, Int.toNat_natCast, List.getElem?_eraseIdx]
  split <;> rfl

/-- An index within the list wraps around to itself, so what can be read is what is deleted. -/
theorem getElem?_wrapped_of_get {v : Value} (hGet : items.get (.number x) = .ok v)
    (hp : (p : Int) = x.truncate % items.length) : items[p]? = some v := by
  obtain ⟨i, hPosition, hItem⟩ := get_eq_ok_iff.mp hGet
  obtain ⟨hIndex, hLess⟩ := position_eq_ok_iff.mp hPosition
  have hTruncate : x.truncate = i := Except.ok.inj hIndex
  rw [hTruncate, Int.emod_eq_of_lt (Int.natCast_nonneg i) (Int.ofNat_lt.mpr hLess)] at hp
  rw [Int.ofNat_inj.mp hp, hItem]

/-- Turning around the list any number of times leads to the same element. -/
theorem delete_congr (h : (items.length : Int) ∣ y.truncate - x.truncate) :
    items.delete (.number y) = items.delete (.number x) := by
  rcases Nat.eq_zero_or_pos items.length with hEmpty | hPos
  · rw [List.eq_nil_of_length_eq_zero hEmpty, delete_nil, delete_nil]
  · have hSame : y.truncate % items.length = x.truncate % items.length :=
      Int.emod_eq_emod_iff_emod_sub_eq_zero.mpr (Int.emod_eq_zero_of_dvd h)
    rw [delete_of_pos items hPos, delete_of_pos items hPos, hSame]

/-- Nothing is left to delete in the empty list, and any other one loses exactly one element. -/
theorem length_delete_number (items : Items) (x : Number) :
    (items.delete (.number x)).items.length = items.length - 1 := by
  rcases Nat.eq_zero_or_pos items.length with hEmpty | hPos
  · rw [List.eq_nil_of_length_eq_zero hEmpty, delete_nil]
    rfl
  · rw [delete_of_pos items hPos]
    exact List.length_eraseIdx_of_lt (toNat_emod_lt x.truncate hPos)

end Items

namespace Edit

/-- Deletions by the given numbers, one after the other. -/
def deletions (keys : List Number) : List Edit := keys.map fun x => .delete (.number x)

/-- Each deletion by a number takes one element away until none is left, whatever the numbers are,
NaN and infinities included. Further ones are refused. -/
theorem length_run_deletions (items : Items) (keys : List Number) :
    (run items (deletions keys)).length = items.length - keys.length := by
  induction keys generalizing items with
  | nil => rfl
  | cons x keys ih =>
      change (run (items.delete (.number x)).items (deletions keys)).length = _
      rw [ih, Items.length_delete_number, List.length_cons, Nat.sub_sub, Nat.add_comm 1]

end Edit

open Edit in
/-- Deleting by any number from a list that has elements succeeds and takes out one position, the
remainder of the truncated number by the length: what stands before it stays, what stands behind it
moves up by one, and the element that goes is the one the number reads, if it reads any. Numbers
whose truncations differ by a multiple of the length delete the same. In a run of as many deletions
as there are elements, by any numbers, each one takes an element, and in the end there is none. -/
theorem delete_removes_wrapped_position (items : Items) (h : 0 < items.length) (x : Number) :
    (∃ (t : Int) (p : Nat), x.TruncatesTo t ∧ (p : Int) = t % items.length ∧ p < items.length ∧
      items.delete (.number x) = ⟨items.take p ++ items.drop (p + 1), pure true⟩ ∧
      (∀ v, items.get (.number x) = .ok v → items[p]? = some v) ∧
      ∀ q : Nat, (items.delete (.number x)).items[q]? = items[if q < p then q else q + 1]?) ∧
    (∀ (y : Number) (s t : Int), x.TruncatesTo s → y.TruncatesTo t →
      (items.length : Int) ∣ t - s → items.delete (.number y) = items.delete (.number x)) ∧
    (∀ keys : List Number, keys.length = items.length →
      run items (deletions keys) = [] ∧
      ∀ (early late : List Number) (key : Number), keys = early ++ key :: late →
        ((run items (deletions early)).delete (.number key)).outcome = pure true) := by
  refine ⟨?_, ?_, ?_⟩
  · have hp := natCast_toNat_emod x.truncate h
    exact ⟨x.truncate, _, x.truncatesTo_truncate, hp, toNat_emod_lt x.truncate h,
      Items.delete_eq_take_append_drop h hp, fun v hGet => Items.getElem?_wrapped_of_get hGet hp,
      Items.getElem?_delete h hp⟩
  · intro y s t hs ht hMultiple
    rw [Number.truncatesTo_iff] at hs ht
    subst hs ht
    exact Items.delete_congr hMultiple
  · intro keys hKeys
    have hLength := length_run_deletions items keys
    refine ⟨List.eq_nil_of_length_eq_zero (by omega), ?_⟩
    rintro early late key rfl
    rw [List.length_append, List.length_cons] at hKeys
    have hLeft : 0 < (run items (deletions early)).length := by
      rw [length_run_deletions]
      omega
    rw [Items.delete_of_pos _ hLeft]

/-- Infinity stops at the greatest integer of 64 bits, which is two more than a multiple of five. -/
theorem delete_removes_wrapped_position_infinity :
    let items : Items := [.text "a", .null, .text "b", .list [], .number .zero]
    let infinity : Number := ⟨0x7ff0000000000000⟩
    0 < items.length ∧
      items.delete (.number infinity) =
        ⟨[.text "a", .null, .list [], .number .zero], pure true⟩ := by
  intro items infinity
  have hPos : 0 < items.length := by decide
  obtain ⟨⟨t, p, ht, hp, _, hDelete, _⟩, _⟩ := delete_removes_wrapped_position items hPos infinity
  have hTruncate : infinity.truncate = 0x7fffffffffffffff := by decide +kernel
  rw [Number.truncatesTo_iff, hTruncate] at ht
  have hLength : items.length = 5 := rfl
  have hPosition : p = 2 := by
    rw [ht, hLength] at hp
    omega
  rw [hDelete, hPosition]
  exact ⟨hPos, rfl⟩

end DynamicValue
