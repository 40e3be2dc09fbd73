import DynamicValue.Fault
import DynamicValue.Log

/-! Computations that may fail and that keep a log. The log survives a fault. -/

namespace DynamicValue

/-- What an operation came to, and what it logged on the way, in order. -/
structure Outcome (α : Type) where
  log : List Event
  result : Except Fault α

namespace Outcome

variable {α β γ : Type}

/-- A fault ends the computation: nothing after it runs or is logged. -/
def bind (first : Outcome α) (next : α → Outcome β) : Outcome β :=
  match first.result with
  | .ok a => ⟨first.log ++ (next a).log, (next a).result⟩
  | .error fault => ⟨first.log, .error fault⟩

instance : Monad Outcome where
  pure a := ⟨[], .ok a⟩
  bind := bind

theorem bind_pure (outcome : Outcome α) : bind outcome pure = outcome := by
  obtain ⟨log, result⟩ := outcome
  cases result with
  | ok a => exact congrArg (Outcome.mk · (.ok a)) (List.append_nil log)
  | error fault => rfl

/-- Three computations in a row may be grouped either way: the logs join up in order, and a fault of
any of them hides what stands behind it. -/
theorem bind_bind (first : Outcome α) (next : α → Outcome β) (last : β → Outcome γ) :
    bind (bind first next) last = bind first fun a => bind (next a) last := by
  obtain ⟨log, result⟩ := first
  cases result with
  | ok a => cases h : (next a).result <;> simp [bind, h]
  | error fault => rfl

instance : LawfulMonad Outcome := LawfulMonad.mk' Outcome bind_pure (fun _ _ => rfl) bind_bind

/-- A result that logs nothing. -/
def ofExcept (result : Except Fault α) : Outcome α := ⟨[], result⟩

def fail (cause : Fault.Cause) : Outcome α := ⟨[], .error { cause }⟩

def emit (event : Event) : Outcome Unit := ⟨[event], .ok ()⟩

@[simp] theorem pure_result (a : α) : (pure a : Outcome α).result = .ok a := rfl

@[simp] theorem ofExcept_result (result : Except Fault α) : (ofExcept result).result = result := rfl

@[simp] theorem fail_result (cause : Fault.Cause) :
    (fail cause : Outcome α).result = .error { cause } := rfl

@[simp] theorem emit_result (event : Event) : (emit event).result = .ok () := rfl

@[simp] theorem pure_log (a : α) : (pure a : Outcome α).log = [] := rfl

@[simp] theorem ofExcept_log (result : Except Fault α) : (ofExcept result).log = [] := rfl

@[simp] theorem fail_log (cause : Fault.Cause) : (fail cause : Outcome α).log = [] := rfl

@[simp] theorem emit_log (event : Event) : (emit event).log = [event] := rfl

@[simp] theorem map_result (f : α → β) (outcome : Outcome α) :
    (f <$> outcome).result = outcome.result.map f := by
  change (bind outcome _).result = _
  cases h : outcome.result <;> simp [bind, h, Except.map]

@[simp] theorem map_log (f : α → β) (outcome : Outcome α) : (f <$> outcome).log = outcome.log := by
  change (bind outcome _).log = _
  cases h : outcome.result <;> simp [bind, h]

/-- A computation in two parts succeeds if both do. -/
theorem bind_eq_ok_iff {first : Outcome α} {next : α → Outcome β} {b : β} :
    (first >>= next).result = .ok b ↔ ∃ a, first.result = .ok a ∧ (next a).result = .ok b := by
  change (bind first next).result = .ok b ↔ _
  cases h : first.result <;> simp [bind, h]

/-- A computation in two parts fails with the fault of its first part, or with that of the second
if the first succeeds. -/
theorem bind_eq_error_iff {first : Outcome α} {next : α → Outcome β} {fault : Fault} :
    (first >>= next).result = .error fault ↔
      first.result = .error fault ∨ ∃ a, first.result = .ok a ∧ (next a).result = .error fault := by
  change (bind first next).result = .error fault ↔ _
  cases h : first.result <;> simp [bind, h]

section Pair

variable {first : Outcome α} {second : Outcome β} {combine : α → β → γ}

/-- Two computations that do not depend on each other succeed together. -/
theorem pair_eq_ok_iff {c : γ} :
    (do let a ← first; let b ← second; return combine a b).result = .ok c ↔
      ∃ a b, first.result = .ok a ∧ second.result = .ok b ∧ combine a b = c := by
  simp only [bind_eq_ok_iff, pure_result, Except.ok.injEq]
  constructor
  · rintro ⟨a, hFirst, b, hSecond, hResult⟩
    exact ⟨a, b, hFirst, hSecond, hResult⟩
  · rintro ⟨a, b, hFirst, hSecond, hResult⟩
    exact ⟨a, hFirst, b, hSecond, hResult⟩

/-- The fault of the second one counts only if the first one succeeds. -/
theorem pair_eq_error_iff {fault : Fault} :
    (do let a ← first; let b ← second; return combine a b).result = .error fault ↔
      first.result = .error fault ∨
        ∃ a, first.result = .ok a ∧ second.result = .error fault := by
  simp only [bind_eq_error_iff, pure_result, reduceCtorEq, and_false, exists_false, or_false]

end Pair

end Outcome

end DynamicValue
