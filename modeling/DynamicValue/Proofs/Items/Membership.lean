import DynamicValue.Evaluate
import DynamicValue.Proofs.Equality.Canonical
import DynamicValue.Proofs.Items.Edit
import DynamicValue.Proofs.Number.Nearest
import DynamicValue.Value.Membership

/-!
The position of an element as a key. What the search for a value answers addresses the first equal
element in everything that takes a key, wrapped or not, as long as positions are exact as numbers;
so deleting what is found, until nothing is, leaves the elements that are not equal to the value.
-/

namespace DynamicValue

namespace Items

variable {items : Items} {value x : Value} {i : Nat}

/-- The element at the position is equal to the value, and none before it is. -/
structure FirstEqual (items : Items) (value : Value) (i : Nat) (x : Value) : Prop where
  here : items[i]? = some x
  equal : x.equals value = true
  before : ∀ (j : Nat) (y : Value), j < i → items[j]? = some y → y.equals value = false

theorem FirstEqual.lt_length (h : items.FirstEqual value i x) : i < items.length :=
  (List.getElem?_eq_some_iff.mp h.here).1

theorem findIdx?_of_firstEqual (h : items.FirstEqual value i x) :
    items.findIdx? (·.equals value) = some i := by
  obtain ⟨hLength, hElement⟩ := List.getElem?_eq_some_iff.mp h.here
  rw [List.findIdx?_eq_some_iff_getElem]
  refine ⟨hLength, hElement ▸ h.equal, ?_⟩
  intro j hLess
  rw [h.before j _ hLess (List.getElem?_eq_getElem (Nat.lt_trans hLess hLength))]
  simp

/-- Where there are equal elements, one of them is the first. -/
theorem exists_firstEqual (h : ∃ x ∈ items, x.equals value = true) :
    ∃ i x, items.FirstEqual value i x := by
  have hFound := List.findIdx?_eq_some_of_exists h
  rw [List.findIdx?_eq_some_iff_getElem] at hFound
  obtain ⟨hLength, hEqual, hBefore⟩ := hFound
  refine ⟨_, _, List.getElem?_eq_getElem hLength, hEqual, ?_⟩
  intro j y hLess hy
  obtain ⟨_, rfl⟩ := List.getElem?_eq_some_iff.mp hy
  simpa using hBefore j hLess

/-- A value that is found is found at the position of the first equal element. -/
theorem indexOf_of_firstEqual (h : items.FirstEqual value i x) :
    items.indexOf value = .number (.ofNat i) := by
  rw [indexOf, findIdx?_of_firstEqual h]
  rfl

theorem indexOf_eq_null (h : ∀ x ∈ items, x.equals value = false) :
    items.indexOf value = .null := by
  have hNone : items.findIdx? (·.equals value) = none := List.findIdx?_eq_none_iff.mpr h
  rw [indexOf, hNone]
  rfl

/-- The number of a position within a list is an index within the list, and wraps to itself. -/
theorem truncate_ofNat_of_lt (hLength : items.length ≤ Number.exactLimit)
    (h : i < items.length) : (Number.ofNat i).truncate = i :=
  Number.truncate_ofNat (Nat.le_trans (Nat.le_of_lt h) hLength)

/-- A position within the list, as a number, is a key that addresses it. The list must be short
enough for its positions to be exact. -/
theorem position_ofNat (hLength : items.length ≤ Number.exactLimit) (h : i < items.length) :
    items.position (.number (.ofNat i)) = .ok i := by
  rw [position_number, truncate_ofNat_of_lt hLength h, if_pos (by omega)]
  rfl

theorem has_ofNat (hLength : items.length ≤ Number.exactLimit) (h : i < items.length) :
    items.has (.number (.ofNat i)) = .ok true := by
  have hWithin : inBounds (i : Int) items.length = true := by simp [inBounds, h]
  change Except.ok (inBounds (Number.ofNat i).truncate items.length) = Except.ok true
  rw [truncate_ofNat_of_lt hLength h, hWithin]

/-- The number of a position reads the element at this position and no other. -/
theorem get_ofNat (hLength : items.length ≤ Number.exactLimit) (h : items[i]? = some x) :
    items.get (.number (.ofNat i)) = .ok x := by
  have hLess := (List.getElem?_eq_some_iff.mp h).1
  rw [get, position_ofNat hLength hLess]
  change Except.ok (items.getD i .null) = Except.ok x
  rw [List.getD_eq_getElem?_getD, h]
  rfl

theorem put_ofNat (hLength : items.length ≤ Number.exactLimit) (h : i < items.length)
    (w : Value) : items.put (.number (.ofNat i)) w = ⟨items.set i w, pure true⟩ := by
  rw [put, position_ofNat hLength h]

/-- The number of a position deletes the element at this position: wrapping leaves it alone. -/
theorem delete_ofNat (hLength : items.length ≤ Number.exactLimit) (h : i < items.length) :
    items.delete (.number (.ofNat i)) = ⟨items.eraseIdx i, pure true⟩ := by
  rw [delete_of_pos items (Nat.zero_lt_of_lt h), truncate_ofNat_of_lt hLength h,
    Int.emod_eq_of_lt (Int.natCast_nonneg i) (Int.ofNat_lt.mpr h)]
  rfl

/-- Deleting what is found removes the first equal element, and says whether there was one. -/
theorem delete_indexOf (hLength : items.length ≤ Number.exactLimit) (value : Value) :
    items.delete (items.indexOf value) =
      ⟨items.eraseP (·.equals value), pure (items.any (·.equals value))⟩ := by
  by_cases hAny : ∃ x ∈ items, x.equals value = true
  · obtain ⟨i, x, hFirst⟩ := exists_firstEqual hAny
    have hTrue : items.any (·.equals value) = true := List.any_eq_true.mpr hAny
    rw [indexOf_of_firstEqual hFirst, delete_ofNat hLength hFirst.lt_length, hTrue,
      List.eraseP_eq_eraseIdx, findIdx?_of_firstEqual hFirst]
  · have hNone : ∀ x ∈ items, x.equals value = false := by simpa using hAny
    have hFalse : items.any (·.equals value) = false := by simpa using hNone
    have hSame : items.eraseP (·.equals value) = items := by simpa using hNone
    rw [indexOf_eq_null hNone, hFalse, hSame]
    rfl

/-- Deleting what is found, as often as given and then once more, which is refused. -/
inductive Purges (value : Value) : Items → Items → Nat → Prop where
  | refused {items : Items}
      (answer : (items.delete (items.indexOf value)).outcome.result = .ok false) :
      Purges value items (items.delete (items.indexOf value)).items 0
  | deleted {items last : Items} {count : Nat}
      (answer : (items.delete (items.indexOf value)).outcome.result = .ok true)
      (rest : Purges value (items.delete (items.indexOf value)).items last count) :
      Purges value items last (count + 1)

/-- Without an equal element the first deletion is refused. -/
theorem purges_iff_of_none (hLength : items.length ≤ Number.exactLimit)
    (hNone : items.any (·.equals value) = false) (last : Items) (count : Nat) :
    Purges value items last count ↔ last = items ∧ count = 0 := by
  have hDelete : items.delete (items.indexOf value) = ⟨items, pure false⟩ := by
    have hSame : items.eraseP (·.equals value) = items := by simpa using hNone
    rw [delete_indexOf hLength, hNone, hSame]
  constructor
  · intro h
    cases h with
    | refused => exact ⟨by rw [hDelete], rfl⟩
    | deleted answer =>
        rw [hDelete] at answer
        cases answer
  · rintro ⟨rfl, rfl⟩
    have hRefused := Purges.refused (congrArg (·.outcome.result) hDelete)
    rwa [hDelete] at hRefused

/-- With an equal element the first deletion removes the first such element. -/
theorem purges_iff_of_any (hLength : items.length ≤ Number.exactLimit)
    (hAny : items.any (·.equals value) = true) (last : Items) (count : Nat) :
    Purges value items last count ↔
      ∃ rounds, count = rounds + 1 ∧ Purges value (items.eraseP (·.equals value)) last rounds := by
  have hDelete : items.delete (items.indexOf value) =
      ⟨items.eraseP (·.equals value), pure true⟩ := by
    rw [delete_indexOf hLength, hAny]
  constructor
  · intro h
    cases h with
    | refused answer =>
        rw [hDelete] at answer
        cases answer
    | @deleted _ _ rounds _ rest =>
        rw [hDelete] at rest
        exact ⟨rounds, rfl, rest⟩
  · rintro ⟨rounds, rfl, rest⟩
    refine Purges.deleted (congrArg (·.outcome.result) hDelete) ?_
    rwa [hDelete]

/-- The first element that a test holds for is the only difference that its removal makes to the
elements that the test fails for, and to how many it holds for. -/
theorem filter_countP_eraseP {test : Value → Bool} (h : items.any test = true) :
    (items.eraseP test).filter (!test ·) = items.filter (!test ·) ∧
      items.countP test = (items.eraseP test).countP test + 1 := by
  obtain ⟨x, hx, hTest⟩ := List.any_eq_true.mp h
  obtain ⟨y, early, late, hEarly, hy, hSplit, hErased⟩ := List.exists_of_eraseP hx hTest
  rw [hErased, hSplit]
  simp [List.filter_append, List.countP_append, hy, Nat.add_assoc]

/-- The deletions end, after as many as there are equal elements, and all others are left. -/
theorem purges_iff (hLength : items.length ≤ Number.exactLimit) (value : Value) (last : Items)
    (count : Nat) :
    Purges value items last count ↔
      last = items.filter (!·.equals value) ∧ count = items.countP (·.equals value) := by
  generalize hCount : items.countP (·.equals value) = equals
  induction equals generalizing items count with
  | zero =>
      have hEach : ∀ x ∈ items, x.equals value = false := by
        simpa using List.countP_eq_zero.mp hCount
      have hFilter : items.filter (!·.equals value) = items := by simpa using hEach
      rw [purges_iff_of_none hLength (by simpa using hEach), hFilter]
  | succ equals ih =>
      have hAny : items.any (·.equals value) = true := by
        rw [List.any_eq_true]
        exact List.countP_pos_iff.mp (by omega)
      obtain ⟨hFilter, hErased⟩ := filter_countP_eraseP hAny
      have hShorter : (items.eraseP (·.equals value)).length ≤ Number.exactLimit :=
        Nat.le_trans List.length_eraseP_le hLength
      rw [purges_iff_of_any hLength hAny, ← hFilter]
      constructor
      · rintro ⟨rounds, rfl, rest⟩
        obtain ⟨hLast, rfl⟩ := (ih hShorter rounds (by omega)).mp rest
        exact ⟨hLast, rfl⟩
      · rintro ⟨hLast, rfl⟩
        exact ⟨equals, rfl, (ih hShorter equals (by omega)).mpr ⟨hLast, rfl⟩⟩

/-- An appended value is there to be found, a list after its own elements. -/
theorem indexOf_append_ne_null (items : Items) (value : Value) :
    (items.append value).items.indexOf value ≠ .null := by
  have hMem : value ∈ (items.append value).items := by
    rw [append_items, Block.write_at_end]
    simp
  obtain ⟨i, x, hFirst⟩ := exists_firstEqual ⟨value, hMem, value.equals_refl⟩
  rw [indexOf_of_firstEqual hFirst]
  simp

end Items

/-- The operator and the question look for members alike, except in texts. -/
theorem Operator.evaluate_member_result (value : Value) {haystack : Value}
    (h : haystack.kind ≠ .text) :
    (Operator.member.evaluate value haystack).result = haystack.memberIndex value := by
  cases haystack with
  | text => exact absurd rfl h
  | null | number | list => rfl

open Items in
/-- In a list whose positions are exact as numbers, a value that some element is equal to is found
at the first such element, as the number that its position is; this number as a key is in the list,
reads, replaces and deletes this element and no other. A value that no element is equal to is not
found, and deleting what is found is refused. Deleting what is found ends, whichever value it is,
when exactly the elements not equal to it are left. A value just appended is found, and looking for
members by the operator and by the question comes to the same, faults included. -/
theorem membership_addresses_first_equal {items : Items} (h : items.length ≤ Number.exactLimit)
    (value : Value) :
    ((∃ x ∈ items, x.equals value = true) → ∃ i x, items.FirstEqual value i x ∧
      ∃ n : Number, items.indexOf value = .number n ∧ n.scaled = i * Number.unitsPerOne ∧
        items.has (.number n) = .ok true ∧ items.get (.number n) = .ok x ∧
        (∀ w, items.put (.number n) w = ⟨items.set i w, pure true⟩) ∧
        items.delete (.number n) = ⟨items.eraseIdx i, pure true⟩) ∧
    ((∀ x ∈ items, x.equals value = false) → items.indexOf value = .null ∧
      items.delete (items.indexOf value) = ⟨items, pure false⟩) ∧
    (∀ (last : Items) (count : Nat), Purges value items last count ↔
      last = items.filter (!·.equals value) ∧ count = items.countP (·.equals value)) ∧
    (items.append value).items.indexOf value ≠ .null ∧
    (∀ haystack : Value, haystack.kind ≠ .text →
      (Operator.member.evaluate value haystack).result = haystack.memberIndex value) := by
  refine ⟨?_, ?_, purges_iff h value, items.indexOf_append_ne_null value,
    fun haystack => Operator.evaluate_member_result value⟩
  · intro hAny
    obtain ⟨i, x, hFirst⟩ := exists_firstEqual hAny
    have hLess := hFirst.lt_length
    exact ⟨i, x, hFirst, .ofNat i, indexOf_of_firstEqual hFirst,
      Number.scaled_ofNat (Nat.le_trans (Nat.le_of_lt hLess) h), has_ofNat h hLess,
      get_ofNat h hFirst.here, put_ofNat h hLess, delete_ofNat h hLess⟩
  · intro hNone
    rw [indexOf_eq_null hNone]
    exact ⟨rfl, rfl⟩

open Items in
/-- Positive zero is found where negative zero stands. Two deletions remove both zeros, and a third
one is refused. -/
theorem membership_addresses_first_equal_zeros :
    let items : Items := [.text "0", .number (.ofPattern true 0), .number .zero, .null]
    items.length ≤ Number.exactLimit ∧ (∃ x ∈ items, x.equals (.number .zero) = true) ∧
      (∃ (i : Nat) (n : Number), i < 4 ∧ items.indexOf (.number .zero) = .number n ∧
        n.scaled = i * Number.unitsPerOne ∧
        items.delete (.number n) = ⟨items.eraseIdx i, pure true⟩) ∧
      Purges (.number .zero) items [.text "0", .null] 2 := by
  intro items
  have hLength : items.length ≤ Number.exactLimit := by decide
  have hAny : ∃ x ∈ items, x.equals (.number .zero) = true :=
    ⟨.number .zero, by simp [items], by decide⟩
  obtain ⟨hFound, _, hPurges, _⟩ := membership_addresses_first_equal hLength (.number .zero)
  obtain ⟨i, x, hFirst, n, hIndex, hExact, _, _, _, hDelete⟩ := hFound hAny
  exact ⟨hLength, hAny, ⟨i, n, hFirst.lt_length, hIndex, hExact, hDelete⟩,
    (hPurges [.text "0", .null] 2).mpr ⟨rfl, by decide⟩⟩

end DynamicValue
