import DynamicValue.Proofs.Broadcast.Path
import DynamicValue.Proofs.Order.Schema

/-!
Values that are level without being equal. The order of values of different kinds is that of their
texts, so null is level with the text that reads `null`, though no value of one kind equals one of
another. Such pairs, at whatever depth, are the only gap between the order and equality: of any two
values without one, one is less than the other or both are equal.
-/

namespace DynamicValue

namespace Value

variable {a b : Value}

/-- Values of different kinds are ordered by their texts in full, lists included. -/
theorem compare_of_kind_ne (h : a.kind ≠ b.kind) :
    a.compare b = Ord.compare a.render b.render := by
  unfold compare
  split
  · exact absurd rfl h
  · exact absurd rfl h
  · exact absurd rfl h
  · rfl

/-- Values of different kinds are never equal, even if they have one text. -/
theorem not_equals_of_kind_ne (h : a.kind ≠ b.kind) : a.equals b = false := by
  unfold equals
  split
  · exact absurd rfl h
  · exact absurd rfl h
  · exact absurd rfl h
  · exact absurd rfl h
  · rfl

/-- What the order takes for the same, elements apart: lists of one length, equal values of one
kind, and values of different kinds that have one text. -/
def LevelNode : Value → Value → Prop
  | .list xs, .list ys => xs.length = ys.length
  | x, y => if x.kind = y.kind then x.equals y = true else x.render = y.render

theorem levelNode_of_kind_ne (h : a.kind ≠ b.kind) : a.LevelNode b ↔ a.render = b.render := by
  unfold LevelNode
  split
  · exact absurd rfl h
  · rw [if_neg h]

/-- If one of two values is no list, there is nothing in either that the order could look into, and
the two themselves decide. -/
theorem compare_eq_iff_levelNode (h : a.length? = none ∨ b.length? = none) :
    a.compare b = .eq ↔ a.LevelNode b := by
  by_cases hKind : a.kind = b.kind
  · cases a <;> cases b <;> simp only [kind, reduceCtorEq] at hKind
    · simp [compare, LevelNode, equals]
    · exact beq_iff_eq.symm
    · rw [compare_text, Std.LawfulEqCmp.compare_eq_iff_eq]
      exact beq_iff_eq.symm
    · simp at h
  · rw [compare_of_kind_ne hKind, levelNode_of_kind_ne hKind]
    exact Std.LawfulEqCmp.compare_eq_iff_eq

theorem equals_iff_levelNode (h : a.length? = none ∨ b.length? = none) :
    a.equals b = true ↔ a.kind = b.kind ∧ a.LevelNode b := by
  by_cases hKind : a.kind = b.kind
  · cases a <;> cases b <;> simp only [kind, reduceCtorEq] at hKind
    · simp [LevelNode]
    · simp [LevelNode, kind]
    · simp [LevelNode, kind]
    · simp at h
  · simp [not_equals_of_kind_ne hKind, hKind]

/-- A relation between the parts of two values that one path leads to, whatever the path. -/
def Pathwise (R : Value → Value → Prop) (a b : Value) : Prop :=
  ∀ (path : Path) (x y : Value), a.at? path = some x → b.at? path = some y → R x y

variable {R : Value → Value → Prop}

/-- No path leads on in both values if one of them is no list. -/
theorem pathwise_iff_of_leaf (h : a.length? = none ∨ b.length? = none) :
    Pathwise R a b ↔ R a b := by
  constructor
  · intro hPaths
    exact hPaths [] a b rfl rfl
  · intro hNode path x y hx hy
    cases path with
    | nil =>
        cases hx
        cases hy
        exact hNode
    | cons i path =>
        rcases h with h | h
        · rw [at?_cons_of_length?_eq_none h] at hx
          cases hx
        · rw [at?_cons_of_length?_eq_none h] at hy
          cases hy

/-- A relation between the elements of two lists at one position, whatever the position. -/
def Positionwise (R : Value → Value → Prop) (xs ys : Items) : Prop :=
  ∀ (i : Nat) (x y : Value), xs[i]? = some x → ys[i]? = some y → R x y

/-- A relation holds position by position if it holds at the first one and at those behind it. -/
theorem positionwise_cons_iff (x y : Value) (xs ys : Items) :
    Positionwise R (x :: xs) (y :: ys) ↔ R x y ∧ Positionwise R xs ys := by
  constructor
  · intro hEach
    exact ⟨hEach 0 x y rfl rfl, fun i => hEach (i + 1)⟩
  · rintro ⟨hHead, hTail⟩ i v w hv hw
    cases i with
    | zero =>
        cases hv
        cases hw
        exact hHead
    | succ i => exact hTail i v w hv hw

theorem positionwise_congr {S : Value → Value → Prop} {xs : Items} (ys : Items)
    (h : ∀ x ∈ xs, ∀ y, R x y ↔ S x y) : Positionwise R xs ys ↔ Positionwise S xs ys := by
  constructor
  · intro hEach i x y hx hy
    exact (h x (List.mem_of_getElem? hx) y).mp (hEach i x y hx hy)
  · intro hEach i x y hx hy
    exact (h x (List.mem_of_getElem? hx) y).mpr (hEach i x y hx hy)

/-- The paths through two lists are the position of an element followed by a path through it. -/
theorem pathwise_list_iff (xs ys : Items) :
    Pathwise R (.list xs) (.list ys) ↔
      R (.list xs) (.list ys) ∧ Positionwise (Pathwise R) xs ys := by
  constructor
  · intro hPaths
    refine ⟨hPaths [] _ _ rfl rfl, ?_⟩
    intro i x y hx hy path v w hv hw
    apply hPaths (i :: path)
    · rw [at?_list_cons, hx]
      exact hv
    · rw [at?_list_cons, hy]
      exact hw
  · rintro ⟨hNode, hEach⟩ path v w hv hw
    cases path with
    | nil =>
        cases hv
        cases hw
        exact hNode
    | cons i path =>
        rw [at?_list_cons, Option.bind_eq_some_iff] at hv hw
        obtain ⟨x, hx, hv⟩ := hv
        obtain ⟨y, hy, hw⟩ := hw
        exact hEach i x y hx hy path v w hv hw

/-- The elements of two lists are level, as far as both lists go, if they are so at each
position. -/
theorem compareEach_eq_iff_positionwise (xs ys : Items) :
    compareEach xs ys = .eq ↔ Positionwise (fun x y => x.compare y = .eq) xs ys := by
  induction xs generalizing ys with
  | nil => simp [compareEach, Positionwise]
  | cons x xs ih => cases ys with
    | nil => simp [compareEach, Positionwise]
    | cons y ys => rw [compareEach, Ordering.then_eq_eq, ih, positionwise_cons_iff]

theorem equalsEach_iff_positionwise (xs ys : Items) :
    equalsEach xs ys = true ↔ Positionwise (fun x y => x.equals y = true) xs ys := by
  induction xs generalizing ys with
  | nil => simp [equalsEach, Positionwise]
  | cons x xs ih => cases ys with
    | nil => simp [equalsEach, Positionwise]
    | cons y ys => rw [equalsEach, Bool.and_eq_true, ih, positionwise_cons_iff]

/-- Two values are level if the order sees no difference along any path. -/
theorem compare_eq_iff_pathwise (a b : Value) : a.compare b = .eq ↔ Pathwise LevelNode a b := by
  induction a generalizing b with
  | null | number | text =>
      rw [pathwise_iff_of_leaf (.inl rfl), compare_eq_iff_levelNode (.inl rfl)]
  | list xs ih => cases b with
    | list ys =>
        rw [pathwise_list_iff, compare, Ordering.then_eq_eq, Std.LawfulEqCmp.compare_eq_iff_eq,
          compareEach_eq_iff_positionwise, positionwise_congr ys ih]
        rfl
    | null | number | text =>
        rw [pathwise_iff_of_leaf (.inr rfl), compare_eq_iff_levelNode (.inr rfl)]

/-- Two values are equal if, besides, no path leads to values of different kinds. -/
theorem equals_iff_pathwise (a b : Value) :
    a.equals b = true ↔ Pathwise (fun x y => x.kind = y.kind ∧ x.LevelNode y) a b := by
  induction a generalizing b with
  | null | number | text =>
      rw [pathwise_iff_of_leaf (.inl rfl), equals_iff_levelNode (.inl rfl)]
  | list xs ih => cases b with
    | list ys =>
        have hNode : (Value.list xs).LevelNode (.list ys) ↔ xs.length = ys.length := Iff.rfl
        rw [pathwise_list_iff, equals, Bool.and_eq_true, beq_iff_eq, equalsEach_iff_positionwise,
          positionwise_congr ys ih, hNode]
        simp only [kind, true_and]
    | null | number | text =>
        rw [pathwise_iff_of_leaf (.inr rfl), equals_iff_levelNode (.inr rfl)]

/-- Some path leads to values of different kinds that have one text. -/
def SharesText (a b : Value) : Prop :=
  ∃ (path : Path) (x y : Value), a.at? path = some x ∧ b.at? path = some y ∧ x.kind ≠ y.kind ∧
    x.render = y.render

/-- Equal values are level. The converse fails where a path leads to two kinds with one text. -/
theorem compare_eq_of_equals (h : a.equals b = true) : a.compare b = .eq := by
  rw [compare_eq_iff_pathwise]
  intro path x y hx hy
  exact ((equals_iff_pathwise a b).mp h path x y hx hy).2

/-- Level values differ in kind only where they share a text. -/
theorem equals_iff_not_sharesText (h : a.compare b = .eq) :
    a.equals b = true ↔ ¬ a.SharesText b := by
  constructor
  · rintro hEquals ⟨path, x, y, hx, hy, hKind, _⟩
    exact hKind ((equals_iff_pathwise a b).mp hEquals path x y hx hy).1
  · intro hShares
    rw [equals_iff_pathwise]
    intro path x y hx hy
    have hLevel := (compare_eq_iff_pathwise a b).mp h path x y hx hy
    refine ⟨?_, hLevel⟩
    apply Decidable.byContradiction
    intro hKind
    exact hShares ⟨path, x, y, hx, hy, hKind, (levelNode_of_kind_ne hKind).mp hLevel⟩

end Value

namespace Comparison

/-- The tests of which the order leaves at most one. -/
def threeWay : List Comparison := [less, equal, greater]

theorem mem_threeWay_iff (test : Comparison) :
    test ∈ threeWay ↔ test = less ∨ test = equal ∨ test = greater := by
  simp [threeWay]

variable {a b : Value}

/-- The test that asks for an order. -/
def ofOrdering : Ordering → Comparison
  | .lt => less
  | .eq => equal
  | .gt => greater

/-- Each of the three tests says no less than that the order is the one it asks for. -/
theorem ofOrdering_of_holds {test : Comparison} (hMem : test ∈ threeWay)
    (h : test.holds a b = true) : ofOrdering (a.compare b) = test := by
  rcases (mem_threeWay_iff test).mp hMem with rfl | rfl | rfl
  · rw [show a.compare b = .lt from beq_iff_eq.mp h]
    rfl
  · rw [Value.compare_eq_of_equals h]
    rfl
  · rw [show a.compare b = .gt from beq_iff_eq.mp h]
    rfl

/-- The three tests exclude each other, as each asks for another order. -/
theorem eq_of_holds {test other : Comparison} (hTest : test ∈ threeWay)
    (hOther : other ∈ threeWay) (h : test.holds a b = true) (h' : other.holds a b = true) :
    test = other := by
  rw [← ofOrdering_of_holds hTest h, ofOrdering_of_holds hOther h']

/-- One of the three tests holds, unless the values are level and share a text somewhere: they are
neither ordered nor equal then. -/
theorem exists_holds_iff :
    (∃ test ∈ threeWay, test.holds a b = true) ↔ ¬ (a.compare b = .eq ∧ a.SharesText b) := by
  constructor
  · rintro ⟨test, hMem, hHolds⟩ ⟨hOrder, hShares⟩
    have hTest := ofOrdering_of_holds hMem hHolds
    rw [hOrder] at hTest
    subst hTest
    exact (Value.equals_iff_not_sharesText hOrder).mp hHolds hShares
  · intro h
    cases hOrder : a.compare b with
    | lt => exact ⟨less, by decide, beq_iff_eq.mpr hOrder⟩
    | eq =>
        refine ⟨equal, by decide, ?_⟩
        exact (Value.equals_iff_not_sharesText hOrder).mpr fun hShares => h ⟨hOrder, hShares⟩
    | gt => exact ⟨greater, by decide, beq_iff_eq.mpr hOrder⟩

end Comparison

/-- Equal values are level. Level values are equal unless some path leads to values of different
kinds in them that have one text; level values with such a pair are the only ones of which no test
says less, equal or greater, and of no values do two of the tests say so. What makes two values
level is that the order sees no difference along any path. -/
theorem compare_trichotomy (a b : Value) :
    (a.equals b = true → a.compare b = .eq) ∧
    (a.compare b = .eq → (a.equals b = true ↔ ¬ a.SharesText b)) ∧
    ((∃ test ∈ Comparison.threeWay, test.answer a b = .ok (.ofBool true)) ↔
      ¬ (a.compare b = .eq ∧ a.SharesText b)) ∧
    (∀ test ∈ Comparison.threeWay, ∀ other ∈ Comparison.threeWay,
      test.answer a b = .ok (.ofBool true) → other.answer a b = .ok (.ofBool true) →
        test = other) ∧
    (a.compare b = .eq ↔ Value.Pathwise Value.LevelNode a b) := by
  simp only [Comparison.answer_eq_true_iff]
  exact ⟨Value.compare_eq_of_equals, Value.equals_iff_not_sharesText, Comparison.exists_holds_iff,
    fun test hTest other hOther => Comparison.eq_of_holds hTest hOther,
    Value.compare_eq_iff_pathwise a b⟩

/-- Null and the text that reads `null` are level and not equal, so that of the three tests none
says how they stand. -/
theorem null_level_with_its_text :
    ¬ (Value.null.compare (.text "null") = .eq ↔ Value.null.equals (.text "null") = true) ∧
    ∀ test ∈ Comparison.threeWay,
      test.answer .null (.text "null") = .ok (.number (.ofNat 0)) := by
  refine ⟨by decide, ?_⟩
  intro test hMem
  rcases (Comparison.mem_threeWay_iff test).mp hMem with rfl | rfl | rfl <;> rfl

end DynamicValue
