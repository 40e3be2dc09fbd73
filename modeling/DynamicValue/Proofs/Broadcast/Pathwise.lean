import DynamicValue.Proofs.Broadcast.FirstFault

/-!
The result of an operation on nested values, path by path: when there is one, that it has the shape
of the left value, and what stands at its leaves.
-/

namespace DynamicValue

namespace Value

variable {op : Arithmetic}

/-- Outside of lists an operation gives a number or a text. -/
theorem scalar_eq_ok_kind {x y z : Value} (h : scalar op x y = .ok z) :
    z.kind = .number ∨ z.kind = .text := by
  by_cases hNumbers : x.BothNumbers y
  · obtain ⟨n, hOk⟩ := exists_scalar_of_bothNumbers op hNumbers
    rw [hOk] at h
    cases h
    exact .inl rfl
  rw [scalar_of_not_bothNumbers op hNumbers] at h
  right
  cases op with
  | add | subtract => cases h; rfl
  | divide => cases h
  | multiply =>
      by_cases hRepetition : x.IsRepetition y
      · obtain ⟨s, n, rfl, rfl, hCount⟩ := hRepetition
        rw [textual_multiply_of_isCount s hCount] at h
        split at h <;> cases h
        rfl
      · rw [textual_multiply_of_not_isRepetition hRepetition] at h
        cases h

/-- A list on the right of a leaf acts through its text in full. Where lists cannot act at all,
neither can texts. -/
theorem scalar_list_right (op : Arithmetic) {x : Value} (hLeaf : x.length? = none) (ys : Items)
    (z : Value) :
    scalar op x (.list ys) = .ok z ↔ scalar op x (.text (Items.render ys)) = .ok z := by
  cases x with
  | list xs => cases hLeaf
  | null | number | text => cases op <;> simp [scalar, textual, Items.render, Value.render]

/-- The result is a list, and as long, where the left value is, and no list where it is none. -/
theorem arith_length? {a b c : Value} (h : (a.arith op b).result = .ok c) :
    c.length? = a.length? := by
  cases a with
  | list xs =>
      obtain ⟨_, zs, rfl, hLength, _⟩ := arith_list_eq_ok h
      simp [hLength]
  | null | number | text =>
      rw [arith_of_length?_eq_none op rfl, Outcome.ofExcept_result] at h
      have hKind := scalar_eq_ok_kind h
      cases c with
      | list zs => simp [kind] at hKind
      | null | number | text => rfl

/-- The result has lists where the left value has them, of the same lengths, and leaves where that
has leaves, and no part where that has none. -/
theorem arith_skeleton {a b c : Value} (h : (a.arith op b).result = .ok c) (path : Path) :
    (c.at? path).map length? = (a.at? path).map length? := by
  induction path generalizing a b c with
  | nil => simp [arith_length? h]
  | cons i path ih =>
      cases a with
      | list xs =>
          obtain ⟨_, zs, rfl, hLength, hEach⟩ := arith_list_eq_ok h
          rw [at?_list_cons, at?_list_cons]
          cases hx : xs[i]? with
          | none =>
              have hz : zs[i]? = none := by
                rw [List.getElem?_eq_none_iff] at hx ⊢
                omega
              rw [hz]
          | some x =>
              obtain ⟨y, z, _, hz, hxy⟩ := hEach i x hx
              rw [hz]
              exact ih hxy
      | null | number | text =>
          rw [at?_cons_of_length?_eq_none (arith_length? h) i path,
            at?_cons_of_length?_eq_none rfl i path]

/-- A leaf of the left value that the operation on the whole succeeds with. -/
theorem exists_scalar_of_ok {a b c x : Value} {path : Path} (h : (a.arith op b).result = .ok c)
    (hx : a.at? path = some x) (hLeaf : x.length? = none) :
    ∃ y z, b.along? path = some y ∧ scalar op x y = .ok z ∧ c.at? path = some z := by
  obtain ⟨y, z, hy, hz, hxy⟩ := arith_at? h hx
  rw [arith_of_length?_eq_none op hLeaf, Outcome.ofExcept_result] at hxy
  exact ⟨y, z, hy, hxy, hz⟩

/-- Where all lists fit and the operation succeeds at all leaves, nothing is left to be at fault. -/
theorem not_faultAt_of_fits {a b : Value}
    (hFits : ∀ (path : Path) (xs ys : Items), a.at? path = some (.list xs) →
      b.along? path = some (.list ys) → ys.length = xs.length)
    (hLeaves : ∀ (path : Path) (x y : Value), a.at? path = some x → x.length? = none →
      b.along? path = some y → ∃ z, scalar op x y = .ok z)
    (path : Path) (cause : Fault.Cause) : ¬ FaultAt op a b path cause := by
  intro hFaultAt
  obtain ⟨x, y, hx, hy, hNode⟩ := hFaultAt
  cases hLength : x.length? with
  | none =>
      obtain ⟨z, hOk⟩ := hLeaves path x y hx hLength hy
      have hFault := (scalar_eq_error_iff hLength y { cause }).mpr ⟨cause, hNode, rfl⟩
      rw [hFault] at hOk
      cases hOk
  | some count =>
      cases hNode with
      | shape differ => exact differ (hFits path _ _ hx hy)
      | tooLong => cases hLength
      | multiply leaf | divide leaf => simp [leaf] at hLength

end Value

open Value in
/-- An operation succeeds exactly when no list of the left value meets a list of another length
and it succeeds at every leaf of the left value. Something then goes with every leaf, and the result
has the shape of the left value and at its leaves the results at these. At a leaf two numbers are
calculated with and all else is worked on as texts, a list on the right through its own. -/
theorem arith_pathwise (op : Arithmetic) (a b : Value) :
    ((∃ c, (a.arith op b).result = .ok c) ↔
      (∀ (path : Path) (xs ys : Items), a.at? path = some (.list xs) →
        b.along? path = some (.list ys) → ys.length = xs.length) ∧
      (∀ (path : Path) (x y : Value), a.at? path = some x → x.length? = none →
        b.along? path = some y → ∃ z, scalar op x y = .ok z)) ∧
    (∀ c, (a.arith op b).result = .ok c →
      (∀ path : Path, (c.at? path).map length? = (a.at? path).map length?) ∧
      (∀ (path : Path) (x : Value), a.at? path = some x → x.length? = none →
        ∃ y z, b.along? path = some y ∧ scalar op x y = .ok z ∧ c.at? path = some z ∧
          (z.kind = .number ∨ z.kind = .text))) ∧
    (∀ x y : Number, scalar op (.number x) (.number y) = .ok (.number (x.arith op y))) ∧
    (∀ x y : Value, ¬ x.BothNumbers y → scalar op x y = textual op x y) ∧
    (∀ (x : Value) (ys : Items) (z : Value), x.length? = none →
      (scalar op x (.list ys) = .ok z ↔ scalar op x (.text (Items.render ys)) = .ok z)) := by
  refine ⟨⟨?_, ?_⟩, ?_, fun x y => rfl, fun x y => scalar_of_not_bothNumbers op,
    fun x ys z hLeaf => scalar_list_right op hLeaf ys z⟩
  · intro hSucceeds
    obtain ⟨c, h⟩ := hSucceeds
    constructor
    · intro path xs ys hx hy
      obtain ⟨y, z, hy', _, hOk⟩ := arith_at? h hx
      have hRight : .list ys = y := Option.some.inj (hy.symm.trans hy')
      exact (arith_list_eq_ok hOk).1 ys hRight.symm
    · intro path x y hx hLeaf hy
      obtain ⟨y', z, hy', hOk, _⟩ := exists_scalar_of_ok h hx hLeaf
      have hRight : y = y' := Option.some.inj (hy.symm.trans hy')
      exact ⟨z, hRight ▸ hOk⟩
  · intro hNodes
    obtain ⟨hFits, hLeaves⟩ := hNodes
    cases h : (a.arith op b).result with
    | ok c => exact ⟨c, rfl⟩
    | error fault =>
        obtain ⟨path, cause, hFirst, _⟩ := firstFault_of_error h
        exact absurd hFirst.1 (not_faultAt_of_fits hFits hLeaves path cause)
  · intro c h
    refine ⟨arith_skeleton h, ?_⟩
    intro path x hx hLeaf
    obtain ⟨y, z, hy, hOk, hz⟩ := exists_scalar_of_ok h hx hLeaf
    exact ⟨y, z, hy, hOk, hz, scalar_eq_ok_kind hOk⟩

end DynamicValue
