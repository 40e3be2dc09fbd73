import DynamicValue.Proofs.Broadcast.Path
import DynamicValue.Value.Arithmetic

/-!
Arithmetic with a list on the left, one step into the list and along a whole path. Working through
a list against one value is working through it against copies of the value, so that a list on the
left has a single law, whatever stands on its right.
-/

namespace DynamicValue

namespace Value

variable {op : Arithmetic}

/-- Broadcasting a value is arithmetic with as many copies of it, so that what holds of lists
element by element need not be shown a second time. -/
theorem arithAll_eq_arithEach (op : Arithmetic) (xs : Items) (right : Value) :
    arithAll op xs right = arithEach op xs (List.replicate xs.length right) := by
  induction xs with
  | nil => rfl
  | cons x xs ih =>
      rw [arithAll, ih, List.length_cons, List.replicate_succ, arithEach]

@[simp] theorem checkShape_self (op : Arithmetic) (count : Nat) :
    checkShape op count count = pure () := by
  simp [checkShape]

theorem checkShape_result (op : Arithmetic) {left right : Nat} (h : left ≠ right) :
    (checkShape op left right).result = .error { cause := .shapeMismatch left right } := by
  simp [checkShape, h, Outcome.bind_eq_error_iff]

/-- The check answers nothing, so that the lengths are all there is to learn from its success. -/
theorem eq_of_checkShape_eq_ok {left right : Nat} {answer : Unit}
    (h : (checkShape op left right).result = .ok answer) : left = right := by
  refine Decidable.byContradiction fun hDiffer => ?_
  rw [checkShape_result op hDiffer] at h
  cases h

end Value

namespace Items

/-- A list on the left: first the lengths, then element against element. Broadcasting is the case
of a value that is no list, where the lengths cannot differ. -/
theorem arith_eq (op : Arithmetic) (xs : Items) (right : Value) :
    xs.arith op right = (do
      Value.checkShape op xs.length (right.spread xs.length).length
      Value.arithEach op xs (right.spread xs.length)) := by
  cases right with
  | list ys => rfl
  | null | number | text =>
      simp only [Value.spread, List.length_replicate, Value.checkShape_self, pure_bind,
        ← Value.arithAll_eq_arithEach]
      rfl

end Items

namespace Value

variable {op : Arithmetic}

/-- A list as a value comes to what the list comes to. -/
theorem arith_list_eq_map (op : Arithmetic) (xs : Items) (right : Value) :
    (Value.list xs).arith op right = Value.list <$> xs.arith op right := by
  cases right with
  | list ys => simp [arith, Items.arith]
  | null | number | text => simp [arith, Items.arith]

/-- A list on the left, as a value: the check of the lengths, the elements in order, and the list of
their results. A value that is no list is spread first and passes the check. -/
theorem arith_list (op : Arithmetic) (xs : Items) (right : Value) :
    (Value.list xs).arith op right = (do
      checkShape op xs.length (right.spread xs.length).length
      let items ← arithEach op xs (right.spread xs.length)
      return .list items) := by
  rw [arith_list_eq_map, Items.arith_eq]
  simp

/-- A value that is no list is worked on as a whole. -/
theorem arith_of_length?_eq_none (op : Arithmetic) {left : Value} (h : left.length? = none)
    (right : Value) : left.arith op right = Outcome.ofExcept (scalar op left right) := by
  cases left with
  | list xs => simp at h
  | null | number | text => rw [arith] <;> simp

/-- Success among the elements is success of each, and the results keep their places. -/
theorem arithEach_eq_ok {xs ys zs : Items} (hLength : xs.length = ys.length)
    (h : (arithEach op xs ys).result = .ok zs) :
    zs.length = xs.length ∧ ∀ (i : Nat) (x : Value), xs[i]? = some x →
      ∃ y z, ys[i]? = some y ∧ zs[i]? = some z ∧ (x.arith op y).result = .ok z := by
  induction xs generalizing ys zs with
  | nil =>
      simp only [arithEach, Outcome.pure_result, Except.ok.injEq] at h
      subst h
      simp
  | cons x xs ih =>
      cases ys with
      | nil => simp at hLength
      | cons y ys =>
          rw [arithEach, Outcome.pair_eq_ok_iff] at h
          obtain ⟨z, zs, hHead, hTail, rfl⟩ := h
          obtain ⟨hSame, hEach⟩ := ih (by simpa using hLength) hTail
          refine ⟨by simp [hSame], ?_⟩
          intro i w hw
          cases i with
          | zero =>
              simp only [List.getElem?_cons_zero, Option.some.injEq] at hw
              subst hw
              exact ⟨y, z, rfl, rfl, hHead⟩
          | succ i => simpa using hEach i w (by simpa using hw)

/-- Failure among the elements is the failure of one of them, before which all succeed. -/
theorem arithEach_eq_error {xs ys : Items} {fault : Fault}
    (h : (arithEach op xs ys).result = .error fault) :
    ∃ i x y, xs[i]? = some x ∧ ys[i]? = some y ∧ (x.arith op y).result = .error fault ∧
      ∀ (j : Nat) (v w : Value), j < i → xs[j]? = some v → ys[j]? = some w →
        ∃ z, (v.arith op w).result = .ok z := by
  induction xs generalizing ys with
  | nil => simp [arithEach] at h
  | cons x xs ih =>
      cases ys with
      | nil => simp [arithEach] at h
      | cons y ys =>
          rw [arithEach, Outcome.pair_eq_error_iff] at h
          rcases h with hHead | ⟨z, hHead, hTail⟩
          · exact ⟨0, x, y, rfl, rfl, hHead, by simp⟩
          · obtain ⟨i, v, w, hv, hw, hFault, hBefore⟩ := ih hTail
            refine ⟨i + 1, v, w, by simpa using hv, by simpa using hw, hFault, ?_⟩
            intro j v' w' hj hv' hw'
            cases j with
            | zero =>
                simp only [List.getElem?_cons_zero, Option.some.injEq] at hv' hw'
                subst hv' hw'
                exact ⟨z, hHead⟩
            | succ j => exact hBefore j v' w' (by omega) (by simpa using hv') (by simpa using hw')

/-- Success of a list on the left: a list of the same length, each element worked out against its
partner, of which there are enough. -/
theorem arith_list_eq_ok {xs : Items} {right c : Value}
    (h : ((Value.list xs).arith op right).result = .ok c) :
    (∀ ys, right = .list ys → ys.length = xs.length) ∧
      ∃ zs, c = .list zs ∧ zs.length = xs.length ∧ ∀ (i : Nat) (x : Value), xs[i]? = some x →
        ∃ y z, right.partner? i = some y ∧ zs[i]? = some z ∧ (x.arith op y).result = .ok z := by
  rw [arith_list, Outcome.bind_eq_ok_iff] at h
  obtain ⟨_, hShape, h⟩ := h
  have hLength := (eq_of_checkShape_eq_ok hShape).symm
  rw [Outcome.bind_eq_ok_iff] at h
  obtain ⟨zs, hItems, h⟩ := h
  simp only [Outcome.pure_result, Except.ok.injEq] at h
  obtain ⟨hSame, hEach⟩ := arithEach_eq_ok hLength.symm hItems
  refine ⟨?_, zs, h.symm, hSame, ?_⟩
  · intro ys hRight
    subst hRight
    exact hLength
  · intro i x hx
    obtain ⟨y, z, hy, hz, hxy⟩ := hEach i x hx
    rw [getElem?_spread right (List.getElem?_eq_some_iff.mp hx).1] at hy
    exact ⟨y, z, hy, hz, hxy⟩

/-- Failure of a list on the left: a list of another length on the right, or equal lengths and the
failure of one element, before which all succeed. -/
theorem arith_list_eq_error {xs : Items} {right : Value} {fault : Fault}
    (h : ((Value.list xs).arith op right).result = .error fault) :
    (∃ ys, right = .list ys ∧ xs.length ≠ ys.length ∧
        fault = { cause := .shapeMismatch xs.length ys.length }) ∨
      (∀ ys, right = .list ys → ys.length = xs.length) ∧
        ∃ i x y, xs[i]? = some x ∧ right.partner? i = some y ∧
          (x.arith op y).result = .error fault ∧
          ∀ (j : Nat) (v w : Value), j < i → xs[j]? = some v → right.partner? j = some w →
            ∃ z, (v.arith op w).result = .ok z := by
  rw [arith_list] at h
  by_cases hLength : (right.spread xs.length).length = xs.length
  · right
    rw [hLength, checkShape_self, Outcome.bind_eq_error_iff] at h
    simp only [Outcome.pure_result, reduceCtorEq, false_or, Outcome.bind_eq_error_iff, and_false,
      exists_false, or_false] at h
    obtain ⟨_, _, h⟩ := h
    obtain ⟨i, x, y, hx, hy, hFault, hBefore⟩ := arithEach_eq_error h
    have hi : i < xs.length := (List.getElem?_eq_some_iff.mp hx).1
    rw [getElem?_spread right hi] at hy
    refine ⟨?_, i, x, y, hx, hy, hFault, ?_⟩
    · intro ys hRight
      subst hRight
      exact hLength
    · intro j v w hj hv hw
      rw [← getElem?_spread right (Nat.lt_trans hj hi)] at hw
      exact hBefore j v w hj hv hw
  · left
    obtain ⟨ys, rfl, hne⟩ := (length_spread_ne_iff right xs.length).mp hLength
    rw [Outcome.bind_eq_error_iff, spread, checkShape_result op (Ne.symm hne)] at h
    simp only [Except.error.injEq, reduceCtorEq, false_and, exists_false, or_false] at h
    exact ⟨ys, rfl, Ne.symm hne, h.symm⟩

/-- A successful operation can be followed along any path into the left value: at its end the part
of the result is the operation on the part of the left value and what goes with it. -/
theorem arith_at? {a b c x : Value} {path : Path} (h : (a.arith op b).result = .ok c)
    (hx : a.at? path = some x) :
    ∃ y z, b.along? path = some y ∧ c.at? path = some z ∧ (x.arith op y).result = .ok z := by
  induction path generalizing a b c with
  | nil =>
      simp only [at?_nil, Option.some.injEq] at hx
      subst hx
      exact ⟨b, c, rfl, rfl, h⟩
  | cons i path ih =>
      obtain ⟨xs, v, rfl, hv, hx⟩ := at?_cons_eq_some_iff.mp hx
      obtain ⟨_, zs, rfl, _, hEach⟩ := arith_list_eq_ok h
      obtain ⟨w, r, hw, hr, hvw⟩ := hEach i v hv
      obtain ⟨y, z, hy, hz, hxy⟩ := ih hvw hx
      exact ⟨y, z, along?_cons_eq_some_iff.mpr ⟨w, hw, hy⟩,
        at?_cons_eq_some_iff.mpr ⟨zs, r, rfl, hr, hz⟩, hxy⟩

end Value

end DynamicValue
