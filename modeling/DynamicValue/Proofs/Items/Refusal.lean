import DynamicValue.Proofs.Items.Edit

/-!
When edits fail or answer that they did nothing, and that the list is then the one it was before.
Replacing takes an index as it is, inserting and deleting wrap it around, and deleting is the only
one to refuse a key without a fault.
-/

namespace DynamicValue

namespace Items

variable (items : Items)

/-- Replacing fails on a key that is no number, and on an index outside the list. -/
theorem put_eq_error_iff (key value : Value) (fault : Fault) :
    (items.put key value).outcome.result = .error fault ↔
      (key.kind ≠ .number ∧ fault = { cause := .typeMismatch indexContext key.kind.name }) ∨
      ∃ x, key = .number x ∧ ¬ (0 ≤ x.truncate ∧ x.truncate < items.length) ∧
        fault = { cause := .indexOutOfRange x.truncate items.length } := by
  cases key with
  | number x =>
      rw [put_number]
      by_cases hWithin : 0 ≤ x.truncate ∧ x.truncate < items.length
      · rw [if_pos hWithin]
        constructor
        · intro h
          cases h
        · rintro (⟨hKind, _⟩ | ⟨_, hKey, hOutside, _⟩)
          · exact absurd rfl hKind
          · cases hKey
            exact absurd hWithin hOutside
      · rw [if_neg hWithin]
        constructor
        · intro h
          exact .inr ⟨x, rfl, hWithin, (Except.error.inj h).symm⟩
        · rintro (⟨hKind, _⟩ | ⟨_, hKey, _, rfl⟩)
          · exact absurd rfl hKind
          · cases hKey
            rfl
  | null | text | list =>
      rw [put_of_kind_ne_number items (by simp [Value.kind])]
      simp [Value.kind, eq_comm]

/-- A replacement succeeds or fails; it never answers that it did nothing. -/
theorem put_ne_false (key value : Value) :
    (items.put key value).outcome.result ≠ .ok false := by
  unfold put
  split <;> simp

/-- Inserting fails on the empty list only, whatever is inserted and where. -/
theorem insertAt_eq_error_iff (index : Int) (values : Items) (fault : Fault) :
    (items.insertAt index values).outcome.result = .error fault ↔
      items = [] ∧ fault = { cause := .arithmeticFault wrappingOperation } := by
  cases items with
  | nil => simp [insertAt_nil, eq_comm]
  | cons item items =>
      rw [insertAt_of_pos _ (by simp)]
      simp only
      split <;> simp

/-- Deleting never fails; a list that has elements gives one up for any number. -/
theorem delete_result (key : Value) :
    (items.delete key).outcome.result = .ok (decide (key.kind = .number ∧ items ≠ [])) := by
  by_cases hKind : key.kind = .number
  · cases key with
    | number x =>
        cases items with
        | nil => rfl
        | cons item items =>
            rw [delete_of_pos _ (by simp)]
            simp [Value.kind]
    | null | text | list => cases hKind
  · rw [delete_of_kind_ne_number items hKind]
    simp [hKind]

end Items

namespace Edit

/-- The edit fails, or answers that it did nothing. -/
def Refused (items : Items) (edit : Edit) : Prop :=
  (∃ fault, (edit.apply items).outcome.result = .error fault) ∨
    (edit.apply items).outcome.result = .ok (some false)

/-- A refused edit leaves the list as it is. Apart from deletions it has written no block. -/
theorem Refused.items_eq {items : Items} {edit : Edit} (h : edit.Refused items) :
    (edit.apply items).items = items := by
  by_cases hDelete : ∃ key, edit = .delete key
  · obtain ⟨key, rfl⟩ := hDelete
    have hAnswer : ((Edit.delete key).apply items).outcome.result =
        .ok (some (decide (key.kind = .number ∧ items ≠ []))) := by
      simp only [apply, apply.answering, Outcome.map_result, Items.delete_result, Except.map]
    have hNothing : ¬ (key.kind = .number ∧ items ≠ []) := by
      rcases h with ⟨fault, hFault⟩ | hFalse
      · rw [hAnswer] at hFault
        cases hFault
      · rw [hAnswer] at hFalse
        simpa using hFalse
    by_cases hKind : key.kind = .number
    · have hEmpty : items = [] := by simpa [hKind] using hNothing
      rw [hEmpty]
      exact congrArg Edited.items (Items.delete_nil key)
    · exact congrArg Edited.items (Items.delete_of_kind_ne_number items hKind)
  · cases hBlock : edit.block? items.length with
    | none => exact (apply_of_block?_eq_none (not_exists.mp hDelete) hBlock).1
    | some block =>
        obtain ⟨answer, hAnswer, hDone⟩ := (apply_of_block?_eq_some hBlock).2
        rcases h with ⟨fault, hFault⟩ | hFalse
        · rw [hFault] at hAnswer
          cases hAnswer
        · rw [hFalse] at hAnswer
          cases hAnswer
          exact absurd rfl hDone

/-- A refused edit may be left out of a run. -/
theorem Refused.run_eq {start : Items} {early : List Edit} {edit : Edit}
    (h : edit.Refused (run start early)) (late : List Edit) :
    run start (early ++ edit :: late) = run start (early ++ late) := by
  rw [run_append, run_append]
  change run (edit.apply (run start early)).items late = _
  rw [h.items_eq]

end Edit

open Edit in
/-- At any moment of a run of edits: replacing fails exactly on keys that are no numbers and on
indexes outside the list, and never answers that it did nothing; inserting fails exactly on the
empty list; subtracting always fails; deleting never fails, and does nothing exactly for keys that
are no numbers and on the empty list. Whatever fails or does nothing leaves every element as it is,
so the run goes on as if it had not been asked. -/
theorem refused_edits_leave_list (start : Items) (early : List Edit) :
    let items := run start early
    (∀ key value fault, (items.put key value).outcome.result = .error fault ↔
      (key.kind ≠ .number ∧ fault = { cause := .typeMismatch Items.indexContext key.kind.name }) ∨
      ∃ x, key = .number x ∧ ¬ (0 ≤ x.truncate ∧ x.truncate < items.length) ∧
        fault = { cause := .indexOutOfRange x.truncate items.length }) ∧
    (∀ key value, (items.put key value).outcome.result ≠ .ok false) ∧
    (∀ index values fault, (items.insertAt index values).outcome.result = .error fault ↔
      items = [] ∧ fault = { cause := .arithmeticFault wrappingOperation }) ∧
    (∀ value, (items.subtractFrom value).outcome.result =
      .error { cause := .unsupportedOperation "subtract-from on list" }) ∧
    (∀ key, (∃ answer, (items.delete key).outcome.result = .ok answer) ∧
      ((items.delete key).outcome.result = .ok false ↔ key.kind ≠ .number ∨ items = [])) ∧
    (∀ edit : Edit, edit.Refused items → (edit.apply items).items = items) ∧
    (∀ (edit : Edit) (late : List Edit), edit.Refused items →
      run start (early ++ edit :: late) = run start (early ++ late)) := by
  intro items
  refine ⟨items.put_eq_error_iff, items.put_ne_false, items.insertAt_eq_error_iff, fun _ => rfl, ?_,
    fun edit h => h.items_eq, fun edit late h => h.run_eq late⟩
  intro key
  rw [items.delete_result]
  refine ⟨⟨_, rfl⟩, ?_⟩
  simp [Decidable.imp_iff_not_or]

end DynamicValue
