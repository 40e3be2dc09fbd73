import DynamicValue.Proofs.Broadcast.Elementwise
import DynamicValue.Proofs.Number.Count

/-!
The fault of a single part of the left value against what goes with it, the elements of a list left
out: a list can only meet a list of another length, and everything else is refused or becomes too
long as a text.
-/

namespace DynamicValue

namespace Value

def BothNumbers (left right : Value) : Prop := left.kind = .number ∧ right.kind = .number

/-- A text, and a number that says how often to write it. -/
def IsRepetition (left right : Value) : Prop :=
  ∃ s x, left = .text s ∧ right = .number x ∧ x.IsCount

/-- What is wrong with a part of the left value on its own. Adding and subtracting are never wrong
outside of lists. -/
inductive NodeFault : Arithmetic → Value → Value → Fault.Cause → Prop where
  | shape {op : Arithmetic} {xs ys : Items} (differ : ys.length ≠ xs.length) :
      NodeFault op (.list xs) (.list ys) (.shapeMismatch xs.length ys.length)
  | tooLong {s : String} {x : Number} (count : x.IsCount)
      (long : Text.maxBytes < s.utf8ByteSize * x.count) :
      NodeFault .multiply (.text s) (.number x) (.stringTooLong Text.maxBytes)
  | multiply {left right : Value} (leaf : left.length? = none)
      (noNumbers : ¬ left.BothNumbers right) (noRepetition : ¬ left.IsRepetition right) :
      NodeFault .multiply left right (.invalidOperand "*" left.kind.name right.kind.name)
  | divide {left right : Value} (leaf : left.length? = none)
      (noNumbers : ¬ left.BothNumbers right) :
      NodeFault .divide left right (.invalidOperand "/" left.kind.name right.kind.name)

example : Text.maxBytes = Nat.pow 2 28 := rfl

/-- A node has one fault at most. -/
theorem NodeFault.cause_unique {op : Arithmetic} {left right : Value} {first second : Fault.Cause}
    (hFirst : NodeFault op left right first) (hSecond : NodeFault op left right second) :
    first = second := by
  cases hFirst with
  | shape => cases hSecond with
    | shape => rfl
    | multiply leaf | divide leaf => cases leaf
  | tooLong count => cases hSecond with
    | tooLong => rfl
    | multiply _ _ noRepetition => exact absurd ⟨_, _, rfl, rfl, count⟩ noRepetition
  | multiply leaf _ noRepetition => cases hSecond with
    | shape => cases leaf
    | tooLong count => exact absurd ⟨_, _, rfl, rfl, count⟩ noRepetition
    | multiply => rfl
  | divide leaf => cases hSecond with
    | shape => cases leaf
    | divide => rfl

theorem repetitions?_eq_some {x : Number} (h : x.IsCount) :
    repetitions? x = some x.truncate.toNat := by
  simp [repetitions?, h.1, h.2]

theorem repetitions?_eq_none {x : Number} (h : ¬ x.IsCount) : repetitions? x = none := by
  simpa [repetitions?, Number.IsCount] using h

/-- A text is repeated as often as the number says, or is too long. The bound is on the bytes for
the count itself; that the copies are counted after truncation makes no difference within the
bound. -/
theorem textual_multiply_of_isCount (s : String) {x : Number} (h : x.IsCount) :
    textual .multiply (.text s) (.number x) =
      if s.utf8ByteSize * x.count ≤ Text.maxBytes then
        .ok (.text (Text.repeated s x.truncate.toNat))
      else .error { cause := .stringTooLong Text.maxBytes } := by
  simp only [textual, repetitions?_eq_some h,
    Number.mul_truncate_le_iff h s.utf8ByteSize Text.maxBytes (by decide)]

/-- Without a text on the left and a count on the right nothing can be multiplied, and the fault
names the kinds of both. -/
theorem textual_multiply_of_not_isRepetition {left right : Value} (h : ¬ left.IsRepetition right) :
    textual .multiply left right =
      .error { cause := .invalidOperand "*" left.kind.name right.kind.name } := by
  cases left with
  | text s => cases right with
    | number x =>
        have hCount : ¬ x.IsCount := fun hCount => h ⟨s, x, rfl, rfl, hCount⟩
        simp only [textual, repetitions?_eq_none hCount]
        rfl
    | null | text | list => rfl
  | null | number | list => rfl

theorem scalar_of_not_bothNumbers (op : Arithmetic) {left right : Value}
    (h : ¬ left.BothNumbers right) : scalar op left right = textual op left right := by
  cases left with
  | number x => cases right with
    | number y => exact absurd ⟨rfl, rfl⟩ h
    | null | text | list => rfl
  | null | text | list => rfl

/-- Between two numbers every operation has a result, division by zero included. -/
theorem exists_scalar_of_bothNumbers (op : Arithmetic) {left right : Value}
    (h : left.BothNumbers right) : ∃ x, scalar op left right = .ok (.number x) := by
  obtain ⟨hLeft, hRight⟩ := h
  cases left <;> simp [kind] at hLeft
  cases right <;> simp [kind] at hRight
  exact ⟨_, rfl⟩

/-- A text with a count is no pair of numbers, so that the two ways to multiply exclude each
other. -/
theorem IsRepetition.not_bothNumbers {left right : Value} (h : left.IsRepetition right) :
    ¬ left.BothNumbers right := by
  obtain ⟨s, x, rfl, rfl, _⟩ := h
  intro hNumbers
  cases hNumbers.1

/-- The faults of an operation on values as wholes are the node faults. -/
theorem scalar_eq_error_iff {op : Arithmetic} {left : Value} (hLeaf : left.length? = none)
    (right : Value) (fault : Fault) :
    scalar op left right = .error fault ↔
      ∃ cause, NodeFault op left right cause ∧ fault = { cause } := by
  constructor
  · intro h
    by_cases hNumbers : left.BothNumbers right
    · obtain ⟨x, hOk⟩ := exists_scalar_of_bothNumbers op hNumbers
      rw [hOk] at h
      cases h
    rw [scalar_of_not_bothNumbers op hNumbers] at h
    cases op with
    | add | subtract => cases h
    | divide => exact ⟨_, .divide hLeaf hNumbers, (Except.error.inj h).symm⟩
    | multiply =>
        by_cases hRepetition : left.IsRepetition right
        · obtain ⟨s, x, rfl, rfl, hCount⟩ := hRepetition
          rw [textual_multiply_of_isCount s hCount] at h
          split at h
          · cases h
          · rename_i hLong
            exact ⟨_, .tooLong hCount (Nat.lt_of_not_le hLong), (Except.error.inj h).symm⟩
        · rw [textual_multiply_of_not_isRepetition hRepetition] at h
          exact ⟨_, .multiply hLeaf hNumbers hRepetition, (Except.error.inj h).symm⟩
  · intro hExists
    obtain ⟨cause, hFault, rfl⟩ := hExists
    cases hFault with
    | shape => cases hLeaf
    | @tooLong s x hCount hLong =>
        have hRepetition : (Value.text s).IsRepetition (.number x) := ⟨s, x, rfl, rfl, hCount⟩
        have hNumbers := hRepetition.not_bothNumbers
        rw [scalar_of_not_bothNumbers _ hNumbers, textual_multiply_of_isCount _ hCount,
          if_neg (Nat.not_le_of_lt hLong)]
    | multiply _ hNumbers hRepetition =>
        rw [scalar_of_not_bothNumbers _ hNumbers, textual_multiply_of_not_isRepetition hRepetition]
    | divide _ hNumbers =>
        rw [scalar_of_not_bothNumbers _ hNumbers]
        rfl

/-- A node at fault makes the operation on it fail, with this fault and no notes. -/
theorem NodeFault.arith_result {op : Arithmetic} {left right : Value} {cause : Fault.Cause}
    (h : NodeFault op left right cause) : (left.arith op right).result = .error { cause } := by
  cases left with
  | list xs =>
      cases h with
      | @shape _ _ ys differ =>
          rw [arith_list, Outcome.bind_eq_error_iff]
          exact .inl (checkShape_result op differ.symm)
      | multiply leaf | divide leaf => cases leaf
  | null | number | text =>
      rw [arith_of_length?_eq_none op rfl, Outcome.ofExcept_result, scalar_eq_error_iff rfl]
      exact ⟨cause, h, rfl⟩

end Value

end DynamicValue
