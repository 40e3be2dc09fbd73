import DynamicValue.Items.Access
import DynamicValue.Proofs.Items.Edit
import DynamicValue.Proofs.Number.Truncation

/-!
The laws of arrays for reading and replacing by key. A key addresses a position through the integer
it is truncated to, so different keys may address the same one; whether there is such a position is
the same question for reading, for replacing and for asking. A replacement is seen by the keys with
the same integer and by no others.
-/

namespace DynamicValue

namespace Items

variable {items : Items} {key other : Value} {i j : Nat} {fault : Fault}

theorem index_number (x : Number) : index (.number x) = .ok x.truncate := rfl

/-- A key that is no number has no index, and the fault says what it was needed for. -/
theorem index_of_kind_ne_number (h : key.kind ≠ .number) :
    index key = .error { cause := .typeMismatch indexContext key.kind.name } := by
  cases key with
  | number => exact absurd rfl h
  | null | text | list => rfl

/-- Asking compares the index with the bounds by itself, as reading and replacing do. -/
theorem has_number (items : Items) (x : Number) :
    items.has (.number x) = .ok (decide (0 ≤ x.truncate ∧ x.truncate < items.length)) := by
  have hBounds : inBounds x.truncate items.length =
      decide (0 ≤ x.truncate ∧ x.truncate < items.length) := (Bool.decide_and _ _).symm
  rw [has, index_number, ← hBounds]
  rfl

/-- Asking for a key that is no number is a fault, not the answer that it is not there. -/
theorem has_of_kind_ne_number (items : Items) (h : key.kind ≠ .number) :
    items.has key = .error { cause := .typeMismatch indexContext key.kind.name } := by
  rw [has, index_of_kind_ne_number h]
  rfl

/-- The position is all that reading needs to know of the key. -/
theorem get_of_position (h : items.position key = .ok i) :
    items.get key = .ok (items.getD i .null) := by
  rw [get, h]
  rfl

theorem get_of_position_error (h : items.position key = .error fault) :
    items.get key = .error fault := by
  rw [get, h]
  rfl

theorem put_of_position (h : items.position key = .ok i) (value : Value) :
    items.put key value = ⟨items.set i value, pure true⟩ := by
  rw [put, h]

theorem put_of_position_error (h : items.position key = .error fault) (value : Value) :
    items.put key value = ⟨items, Outcome.ofExcept (.error fault)⟩ := by
  rw [put, h]

/-- The keys with a position are the numbers that are truncated to one within the list. -/
theorem position_eq_ok_iff :
    items.position key = .ok i ↔ index key = .ok (i : Int) ∧ i < items.length := by
  by_cases hKind : key.kind = .number
  · cases key with
    | number x =>
        rw [position_number, index_number, Except.ok.injEq]
        split
        · rw [Except.ok.injEq]
          omega
        · simp only [reduceCtorEq, false_iff]
          omega
    | null | text | list => cases hKind
  · rw [position_of_kind_ne_number items hKind, index_of_kind_ne_number hKind]
    simp

/-- All that a key is to a list of some length is the integer it is truncated to. -/
theorem position_congr (h : index other = index key) :
    items.position other = items.position key := by
  rw [position, position, h]

/-- Keys of different indexes address different elements, as no index is wrapped here. -/
theorem ne_of_index_ne (h : index other ≠ index key) (hKey : items.position key = .ok i)
    (hOther : items.position other = .ok j) : i ≠ j := by
  rintro rfl
  apply h
  rw [(position_eq_ok_iff.mp hKey).1, (position_eq_ok_iff.mp hOther).1]

/-- A key is in the list just if it has a position there. -/
theorem has_eq_true_iff : items.has key = .ok true ↔ ∃ i, items.position key = .ok i := by
  by_cases hKind : key.kind = .number
  · cases key with
    | number x =>
        rw [has_number, Except.ok.injEq, decide_eq_true_eq, position_number]
        split
        case isTrue hWithin => simp [hWithin]
        case isFalse hOutside => simp [hOutside]
    | null | text | list => cases hKind
  · rw [has_of_kind_ne_number items hKind, position_of_kind_ne_number items hKind]
    simp

theorem exists_get_iff : (∃ x, items.get key = .ok x) ↔ ∃ i, items.position key = .ok i := by
  cases h : items.position key with
  | ok i => simp [get_of_position h]
  | error fault => simp [get_of_position_error h]

/-- Reading comes to the element at the position of the key. -/
theorem get_eq_ok_iff {x : Value} :
    items.get key = .ok x ↔ ∃ i, items.position key = .ok i ∧ items[i]? = some x := by
  cases h : items.position key with
  | ok i =>
      have hLess := (position_eq_ok_iff.mp h).2
      simp [get_of_position h, List.getD_eq_getElem?_getD, List.getElem?_eq_getElem hLess]
  | error fault => simp [get_of_position_error h]

/-- A key can be replaced just if it has a position, whatever value is put there. -/
theorem exists_put_iff (value : Value) :
    (∃ answer, (items.put key value).outcome.result = .ok answer) ↔
      ∃ i, items.position key = .ok i := by
  cases h : items.position key with
  | ok i => simp [put_of_position h]
  | error fault => simp [put_of_position_error h]

/-- A replacement never changes the length, whether it succeeds or not. -/
theorem length_put (items : Items) (key value : Value) :
    (items.put key value).items.length = items.length := by
  cases h : items.position key with
  | ok i => rw [put_of_position h, List.length_set]
  | error fault => rw [put_of_position_error h]

/-- Replacing an element changes no address. -/
theorem position_put (items : Items) (key value other : Value) :
    (items.put key value).items.position other = items.position other := by
  rw [position, position, length_put]

/-- What was put there is read, by the same key or by another one with the same index. -/
theorem get_put_of_index_eq (hKey : items.position key = .ok i) (h : index other = index key)
    (value : Value) : (items.put key value).items.get other = .ok value := by
  have hLess := (position_eq_ok_iff.mp hKey).2
  have hOther : (items.put key value).items.position other = .ok i := by
    rw [position_put, position_congr h, hKey]
  refine get_eq_ok_iff.mpr ⟨i, hOther, ?_⟩
  rw [put_of_position hKey, List.getElem?_set_self hLess]

/-- A key of another index reads what it read before, or fails as it failed before. The replacement
need not succeed. -/
theorem get_put_of_index_ne (h : index other ≠ index key) (value : Value) :
    (items.put key value).items.get other = items.get other := by
  cases hKey : items.position key with
  | error fault => rw [put_of_position_error hKey]
  | ok i =>
      have hSame := position_put items key value other
      cases hOther : items.position other with
      | error fault =>
          rw [get_of_position_error hOther, get_of_position_error (hSame.trans hOther)]
      | ok j =>
          rw [get_of_position hOther, get_of_position (hSame.trans hOther),
            put_of_position hKey, List.getD_eq_getElem?_getD, List.getD_eq_getElem?_getD,
            List.getElem?_set_ne (ne_of_index_ne h hKey hOther)]

/-- What stands there already may be put there. -/
theorem put_get {x : Value} (h : items.get key = .ok x) :
    items.put key x = ⟨items, pure true⟩ := by
  obtain ⟨i, hKey, hItem⟩ := get_eq_ok_iff.mp h
  obtain ⟨hLess, rfl⟩ := List.getElem?_eq_some_iff.mp hItem
  rw [put_of_position hKey, List.set_getElem_self]

/-- Of two replacements at one position the second one counts. -/
theorem put_put_of_index_eq (h : index other = index key) (value next : Value) :
    (items.put key value).items.put other next = items.put other next := by
  have hSame := position_put items key value other
  cases hKey : items.position key with
  | error fault => rw [put_of_position_error hKey]
  | ok i =>
      have hOther := (position_congr h).trans hKey
      rw [put_of_position (hSame.trans hOther), put_of_position hOther, put_of_position hKey,
        List.set_set]

/-- A replacement answers as if there had been none before it. -/
theorem outcome_put_put (items : Items) (key value other next : Value) :
    ((items.put key value).items.put other next).outcome = (items.put other next).outcome := by
  have hSame := position_put items key value other
  cases hOther : items.position other with
  | error fault => rw [put_of_position_error hOther, put_of_position_error (hSame.trans hOther)]
  | ok j => rw [put_of_position hOther, put_of_position (hSame.trans hOther)]

/-- Replacements at different positions may be exchanged. -/
theorem put_put_comm (h : index other ≠ index key) (value next : Value) :
    ((items.put key value).items.put other next).items =
      ((items.put other next).items.put key value).items := by
  have hFirst := position_put items key value other
  have hSecond := position_put items other next key
  -- a key without a position leaves the list alone on either side
  cases hKey : items.position key with
  | error fault => rw [put_of_position_error hKey, put_of_position_error (hSecond.trans hKey)]
  | ok i => cases hOther : items.position other with
    | error fault =>
        rw [put_of_position_error hOther, put_of_position_error (hFirst.trans hOther)]
    | ok j =>
        rw [put_of_position (hFirst.trans hOther), put_of_position (hSecond.trans hKey),
          put_of_position hKey, put_of_position hOther,
          List.set_comm _ _ (ne_of_index_ne h hKey hOther)]

end Items

open Items in
/-- A key is in the list just if it can be read, and just if it can be replaced. One that is no
number is a fault of all three, the same one; an index outside the list is no fault of asking and
the same fault of the other two. After a replacement the list is as long as before, a key with the
same index reads the new value, and any other key comes to what it came to before. Putting back what
was read changes nothing, a second replacement at one index leaves nothing of the first, and
replacements at different indexes may be exchanged. The index of a number is its truncation. -/
theorem keys_obey_array_laws (items : Items) (key value : Value) :
    ((items.has key = .ok true ↔ ∃ x, items.get key = .ok x) ∧
      (items.has key = .ok true ↔
        ∃ answer, (items.put key value).outcome.result = .ok answer)) ∧
    (key.kind ≠ .number →
      let fault : Fault := { cause := .typeMismatch indexContext key.kind.name }
      items.has key = .error fault ∧ items.get key = .error fault ∧
        (items.put key value).outcome.result = .error fault) ∧
    (∀ x, key = .number x → ¬ (0 ≤ x.truncate ∧ x.truncate < items.length) →
      let fault : Fault := { cause := .indexOutOfRange x.truncate items.length }
      items.has key = .ok false ∧ items.get key = .error fault ∧
        (items.put key value).outcome.result = .error fault) ∧
    ((∃ answer, (items.put key value).outcome.result = .ok answer) →
      (items.put key value).items.length = items.length ∧
      ∀ other, (index other = index key → (items.put key value).items.get other = .ok value) ∧
        (index other ≠ index key →
          (items.put key value).items.get other = items.get other)) ∧
    (∀ x, items.get key = .ok x → items.put key x = ⟨items, pure true⟩) ∧
    (∀ other next, index other = index key →
      (items.put key value).items.put other next = items.put other next) ∧
    (∀ other next, index other ≠ index key →
      ((items.put key value).items.put other next).items =
        ((items.put other next).items.put key value).items ∧
      ((items.put key value).items.put other next).outcome = (items.put other next).outcome ∧
      ((items.put other next).items.put key value).outcome = (items.put key value).outcome) ∧
    (∀ x n, index (.number x) = .ok n ↔ x.TruncatesTo n) := by
  refine ⟨⟨?_, ?_⟩, ?_, ?_, ?_, fun x => put_get, ?_, ?_, ?_⟩
  · rw [has_eq_true_iff, exists_get_iff]
  · rw [has_eq_true_iff, exists_put_iff]
  · intro hKind
    have hPosition := position_of_kind_ne_number items hKind
    rw [has_of_kind_ne_number items hKind, get_of_position_error hPosition,
      put_of_position_error hPosition]
    exact ⟨rfl, rfl, rfl⟩
  · rintro x rfl hOutside
    have hPosition : items.position (.number x) =
        .error { cause := .indexOutOfRange x.truncate items.length } := by
      rw [position_number, if_neg hOutside]
    rw [has_number, decide_eq_false hOutside, get_of_position_error hPosition,
      put_of_position_error hPosition]
    exact ⟨rfl, rfl, rfl⟩
  · rw [exists_put_iff]
    rintro ⟨i, hKey⟩
    exact ⟨length_put items key value, fun other => ⟨fun h => get_put_of_index_eq hKey h value,
      fun h => get_put_of_index_ne h value⟩⟩
  · intro other next h
    exact put_put_of_index_eq h value next
  · intro other next h
    exact ⟨put_put_comm h value next, outcome_put_put items key value other next,
      outcome_put_put items other next key value⟩
  · intro x n
    rw [index_number, Except.ok.injEq, Number.truncatesTo_iff, eq_comm]

end DynamicValue
