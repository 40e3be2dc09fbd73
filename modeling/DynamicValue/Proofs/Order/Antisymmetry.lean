import DynamicValue.Evaluate

/-!
The order of values read from the other side. Exchanging the two values reverses the answer,
whatever their kinds and nesting, so the four tests of the order come in pairs.
-/

namespace DynamicValue

/-- Exchanging two numbers reverses their order, also where one of them is NaN, which comes after
all others, or both are, which are level then. -/
theorem Number.compare_swap (x y : Number) : y.compare x = (x.compare y).swap := by
  unfold Number.compare
  cases x.isNaN <;> cases y.isNaN
  · exact (Int.compare_swap x.scaled y.scaled).symm
  all_goals rfl

/-- A NaN at either end or in the middle leaves nothing to compare. -/
instance : Std.TransCmp Number.compare where
  eq_swap := Number.compare_swap _ _
  isLE_trans {x y z} hFirst hSecond := by
    unfold Number.compare at hFirst hSecond ⊢
    cases hx : x.isNaN <;> cases hy : y.isNaN <;> cases hz : z.isNaN <;>
      simp only [hx, hy, hz] at hFirst hSecond ⊢
    · exact Std.TransCmp.isLE_trans hFirst hSecond
    all_goals first | rfl | contradiction

namespace Value

/-- Elements that exchange their sides element by element do so as lists. -/
theorem compareEach_swap {xs : Items} (ys : Items)
    (h : ∀ v ∈ xs, ∀ w, compare w v = (compare v w).swap) :
    compareEach ys xs = (compareEach xs ys).swap := by
  induction xs generalizing ys with
  | nil => cases ys <;> rfl
  | cons x xs ih =>
      cases ys with
      | nil => rfl
      | cons y ys =>
          have hHead : compare y x = (compare x y).swap := h x (by simp) y
          have hTail := ih ys fun v hv => h v (by simp [hv])
          rw [compareEach, compareEach, hHead, hTail, Ordering.swap_then]

/-- Exchanging two values reverses their order. The cases are those of the definition: two lists,
two numbers, and texts in all others. -/
theorem compare_swap (a b : Value) : b.compare a = (a.compare b).swap := by
  have hText (v w : Value) : Ord.compare w.render v.render = (Ord.compare v.render w.render).swap :=
    Std.OrientedOrd.eq_swap
  induction a generalizing b with
  | null => cases b with
    | null => rfl
    | number | text | list => exact hText _ _
  | number x => cases b with
    | number y => exact x.compare_swap y
    | null | text | list => exact hText _ _
  | text s => cases b <;> exact hText _ _
  | list xs ih => cases b with
    | list ys =>
        rw [compare, compare, Ordering.swap_then, Nat.compare_swap, compareEach_swap ys ih]
    | null | number | text => exact hText _ _

theorem compare_self (a : Value) : a.compare a = .eq :=
  Ordering.eq_eq_of_eq_swap (a.compare_swap a)

theorem lt_iff (a b : Value) : a < b ↔ a.compare b = .lt := Iff.rfl

theorem le_iff (a b : Value) : a ≤ b ↔ a.compare b ≠ .gt := by
  change (a.compare b).isLE = true ↔ _
  cases a.compare b <;> simp

theorem gt_iff (a b : Value) : a > b ↔ a.compare b = .gt := by
  change b.compare a = .lt ↔ _
  rw [a.compare_swap b]
  cases a.compare b <;> simp

theorem ge_iff (a b : Value) : a ≥ b ↔ a.compare b ≠ .lt := by
  change (b.compare a).isLE = true ↔ _
  rw [a.compare_swap b]
  cases a.compare b <;> simp

/-- One and zero are different numbers, so that an answer says which truth value it stands for. -/
theorem ofBool_injective {p q : Bool} (h : ofBool p = ofBool q) : p = q := by
  have hDistinct : Number.ofNat 1 ≠ Number.ofNat 0 := by decide +kernel
  simp only [ofBool, number.injEq] at h
  cases p <;> cases q
  · rfl
  · exact absurd h.symm hDistinct
  · exact absurd h hDistinct
  · rfl

end Value

namespace Comparison

/-- What the evaluation of a test answers. -/
def answer (test : Comparison) (a b : Value) : Except Fault Value :=
  ((Operator.comparison test).evaluate a b).result

/-- A test always answers, with truth as a number. -/
theorem answer_eq (test : Comparison) (a b : Value) :
    test.answer a b = .ok (.ofBool (test.holds a b)) := rfl

theorem answer_eq_true_iff (test : Comparison) (a b : Value) :
    test.answer a b = .ok (.ofBool true) ↔ test.holds a b = true := by
  rw [answer_eq]
  constructor
  · intro h
    exact Value.ofBool_injective (Except.ok.inj h)
  · intro h
    rw [h]

theorem holds_less_swap (a b : Value) : less.holds a b = greater.holds b a := by
  simp only [holds, a.compare_swap b]
  cases a.compare b <;> rfl

theorem holds_lessOrEqual_swap (a b : Value) :
    lessOrEqual.holds a b = greaterOrEqual.holds b a := by
  simp only [holds, a.compare_swap b]
  cases a.compare b <;> rfl

/-- Of two complementary tests one answers one and the other zero. -/
theorem answer_complement {test other : Comparison} {a b : Value}
    (h : other.holds a b = !test.holds a b) :
    ∃ n ≤ 1, test.answer a b = .ok (.number (.ofNat n)) ∧
      other.answer a b = .ok (.number (.ofNat (1 - n))) := by
  refine ⟨(test.holds a b).toNat, Bool.toNat_le _, rfl, ?_⟩
  rw [answer_eq, h]
  cases test.holds a b <;> rfl

end Comparison

/-- Exchanging two values reverses their order, and a value is level with itself; a list without a
value around it has the same order. So each test of the order is the mirror image of one and the
complement of another one, no value is both before and after another, no test ever fails, and the
relations on values agree with the tests. -/
theorem compare_antisymmetric (a b : Value) :
    b.compare a = (a.compare b).swap ∧ a.compare a = .eq ∧
    (∀ items : Items, items.compare b = (Value.list items).compare b) ∧
    Comparison.less.answer a b = Comparison.greater.answer b a ∧
    Comparison.lessOrEqual.answer a b = Comparison.greaterOrEqual.answer b a ∧
    (∃ n ≤ 1, Comparison.greater.answer a b = .ok (.number (.ofNat n)) ∧
      Comparison.lessOrEqual.answer a b = .ok (.number (.ofNat (1 - n)))) ∧
    (∃ n ≤ 1, Comparison.less.answer a b = .ok (.number (.ofNat n)) ∧
      Comparison.greaterOrEqual.answer a b = .ok (.number (.ofNat (1 - n)))) ∧
    ¬ (Comparison.less.answer a b = .ok (.ofBool true) ∧
      Comparison.greater.answer a b = .ok (.ofBool true)) ∧
    (∀ test : Comparison, ∃ value, test.answer a b = .ok value) ∧
    (a < b ↔ Comparison.less.answer a b = .ok (.ofBool true)) ∧
    (a ≤ b ↔ Comparison.lessOrEqual.answer a b = .ok (.ofBool true)) ∧
    (a > b ↔ Comparison.greater.answer a b = .ok (.ofBool true)) ∧
    (a ≥ b ↔ Comparison.greaterOrEqual.answer a b = .ok (.ofBool true)) := by
  simp only [Comparison.answer_eq_true_iff]
  refine ⟨a.compare_swap b, a.compare_self, fun items => items.compare_eq b, ?_, ?_, ?_, ?_, ?_, ?_,
    ?_, ?_, ?_, ?_⟩
  · rw [Comparison.answer_eq, Comparison.answer_eq, Comparison.holds_less_swap]
  · rw [Comparison.answer_eq, Comparison.answer_eq, Comparison.holds_lessOrEqual_swap]
  · exact Comparison.answer_complement rfl
  · exact Comparison.answer_complement rfl
  · intro hBoth
    obtain ⟨hLess, hGreater⟩ := hBoth
    simp only [Comparison.holds, beq_iff_eq] at hLess hGreater
    rw [hLess] at hGreater
    cases hGreater
  · intro test
    exact ⟨_, test.answer_eq a b⟩
  · rw [Value.lt_iff, Comparison.holds, beq_iff_eq]
  · rw [Value.le_iff, Comparison.holds, bne_iff_ne]
  · rw [Value.gt_iff, Comparison.holds, beq_iff_eq]
  · rw [Value.ge_iff, Comparison.holds, bne_iff_ne]

end DynamicValue
