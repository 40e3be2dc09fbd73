import DynamicValue.Proofs.Number.Canonical
import DynamicValue.Value.Order

/-!
One value out of each class of equal ones: the value with all its numbers, at any depth, in
canonical form. Two values are equal if these are the same, so equality is an equivalence, and a
function that does not see the difference between a value and its canonical form does not see the
difference between equal values either.
-/

namespace DynamicValue

namespace Value

mutual

def canonical : Value → Value
  | .null => .null
  | .number x => .number x.canonical
  | .text s => .text s
  | .list items => .list (canonicalEach items)

def canonicalEach : List Value → List Value
  | [] => []
  | v :: vs => v.canonical :: canonicalEach vs

end

theorem canonicalEach_eq_map (items : Items) : canonicalEach items = items.map canonical := by
  induction items with
  | nil => rfl
  | cons v vs ih => rw [canonicalEach, ih, List.map_cons]

@[simp] theorem canonical_list (items : Items) :
    (Value.list items).canonical = .list (items.map canonical) := by
  rw [canonical, canonicalEach_eq_map]

/-- If equality is that of canonical forms for the elements of one list, it is so for the lists: the
same length, and elements that are equal in pairs. -/
theorem map_canonical_eq_iff {xs : Items} (ys : Items)
    (h : ∀ v ∈ xs, ∀ w : Value, v.canonical = w.canonical ↔ v.equals w = true) :
    xs.map canonical = ys.map canonical ↔ xs.length = ys.length ∧ equalsEach xs ys = true := by
  induction xs generalizing ys with
  | nil => cases ys <;> simp [equalsEach]
  | cons x xs ih =>
      cases ys with
      | nil => simp
      | cons y ys =>
          have hTail := ih ys fun v hv => h v (by simp [hv])
          rw [List.map_cons, List.map_cons, List.cons.injEq, hTail, h x (by simp) y, equalsEach]
          simp only [List.length_cons, Nat.add_right_cancel_iff, Bool.and_eq_true]
          constructor
          · rintro ⟨hHead, hLength, hRest⟩
            exact ⟨hLength, hHead, hRest⟩
          · rintro ⟨hLength, hHead, hRest⟩
            exact ⟨hHead, hLength, hRest⟩

/-- Equality is equality of canonical forms. -/
theorem canonical_eq_iff (a b : Value) : a.canonical = b.canonical ↔ a.equals b = true := by
  induction a generalizing b with
  | null => cases b <;> simp [canonical, equals]
  | number x => cases b <;> simp [canonical, equals, Number.canonical_eq_iff]
  | text s => cases b <;> simp [canonical, equals]
  | list xs ih => cases b with
    | list ys =>
        rw [canonical_list, canonical_list, list.injEq, map_canonical_eq_iff ys ih, equals,
          Bool.and_eq_true, beq_iff_eq]
    | null | number | text => simp [canonical, equals]

theorem canonical_canonical (v : Value) : v.canonical.canonical = v.canonical := by
  induction v with
  | null | text => rfl
  | number x => rw [canonical, canonical, Number.canonical_canonical]
  | list items ih =>
      rw [canonical_list, canonical_list, List.map_map]
      congr 1
      exact List.map_congr_left ih

theorem equals_refl (a : Value) : a.equals a = true := (a.canonical_eq_iff a).mp rfl

theorem equals_symm (a b : Value) : a.equals b = b.equals a := by
  rw [Bool.eq_iff_iff, ← canonical_eq_iff, ← canonical_eq_iff]
  exact eq_comm

/-- Equality is transitive, as that of canonical forms is, although the values themselves may differ
in the sign of a zero or the payload of a NaN. -/
theorem equals_trans {a b c : Value} (hFirst : a.equals b = true) (hSecond : b.equals c = true) :
    a.equals c = true := by
  rw [← canonical_eq_iff] at hFirst hSecond ⊢
  exact hFirst.trans hSecond

theorem equals_congr_left {a a' : Value} (h : a.equals a' = true) (b : Value) :
    a.equals b = a'.equals b := by
  rw [Bool.eq_iff_iff, ← canonical_eq_iff, ← canonical_eq_iff, (a.canonical_eq_iff a').mpr h]

theorem equals_canonical_left (a b : Value) : a.canonical.equals b = a.equals b :=
  equals_congr_left ((canonical_eq_iff _ _).mp a.canonical_canonical) b

/-- A function that is blind to the canonical form is blind to the difference of equal values. -/
theorem eq_of_equals {α : Type} {f : Value → α} (hf : ∀ v, f v.canonical = f v) {a a' : Value}
    (h : a.equals a' = true) : f a = f a' := by
  rw [← hf a, ← hf a', (canonical_eq_iff a a').mpr h]

/-- What holds for each element of a list holds for what is read off them one by one. -/
theorem map_map_canonical {α : Type} {f : Value → α} {items : Items}
    (h : ∀ v ∈ items, f v.canonical = f v) : (items.map canonical).map f = items.map f := by
  rw [List.map_map]
  exact List.map_congr_left h

/-- The text in full does not show which zero or which NaN a value holds. -/
theorem render_canonical (v : Value) : v.canonical.render = v.render := by
  induction v with
  | null | text => rfl
  | number x => exact x.render_canonical
  | list items ih =>
      rw [canonical_list, render, render, renderEach_eq_map, renderEach_eq_map,
        map_map_canonical ih]

theorem pretty_canonical (v : Value) : v.canonical.pretty = v.pretty := by
  induction v with
  | null | text => rfl
  | number x => exact x.render_canonical
  | list items ih =>
      rw [canonical_list, pretty, pretty, prettyEach_eq_map, prettyEach_eq_map,
        map_map_canonical ih]

/-- The diagnostic text shows kinds but no bits, and so not which zero or which NaN a value
holds. -/
theorem inspect_canonical (v : Value) : v.canonical.inspect = v.inspect := by
  induction v with
  | null | text => rfl
  | number x => rw [canonical, inspect, inspect, x.render_canonical]
  | list items ih =>
      rw [canonical_list, inspect, inspect, inspectEach_eq_map, inspectEach_eq_map,
        map_map_canonical ih]

theorem kind_canonical (v : Value) : v.canonical.kind = v.kind := by
  cases v <;> simp [canonical, kind]

theorem isTrue_canonical (v : Value) : v.canonical.isTrue = v.isTrue := by
  cases v with
  | null | text => rfl
  | number x => exact x.isTrue_canonical
  | list items => cases items <;> rfl

/-- The number that a value is read as is truncated to the same integer. The number itself may
differ in its bits, so that this is all that can be said. -/
theorem truncate_toNumber_canonical (v : Value) :
    v.canonical.toNumber.truncate = v.toNumber.truncate := by
  cases v with
  | null | text => rfl
  | number x => exact x.truncate_canonical
  | list items => rw [canonical_list, toNumber, toNumber, List.length_map]

/-- If the elements of a list are ordered like their canonical forms, the list is. -/
theorem compareEach_map_canonical {xs : Items} (ys : Items)
    (h : ∀ v ∈ xs, ∀ w : Value, v.canonical.compare w = v.compare w) :
    compareEach (xs.map canonical) ys = compareEach xs ys := by
  induction xs generalizing ys with
  | nil => rfl
  | cons x xs ih =>
      cases ys with
      | nil => rfl
      | cons y ys =>
          have hTail := ih ys fun v hv => h v (by simp [hv])
          rw [List.map_cons, compareEach, compareEach, h x (by simp) y, hTail]

/-- Between values of different kinds, only the texts are compared. -/
theorem compare_canonical_left (a b : Value) : a.canonical.compare b = a.compare b := by
  induction a generalizing b with
  | null | text => rfl
  | number x => cases b with
    | number y => exact x.compare_canonical y
    | null | text | list => exact congrArg (Ord.compare · _) x.render_canonical
  | list xs ih => cases b with
    | list ys =>
        rw [canonical_list, compare, compare, List.length_map, compareEach_map_canonical ys ih]
    | null | number | text =>
        rw [canonical_list]
        exact congrArg (Ord.compare · _) (canonical_list xs ▸ render_canonical (.list xs))

end Value

end DynamicValue
