import DynamicValue.Number.Order
import DynamicValue.Value.Render

/-!
Order and equality of values. Within one kind the order is structural; values of different kinds
are ordered by their texts in full. Equality is structural and never holds between kinds. So null
and the text that reads `null` are not equal, and neither comes before the other.
-/

namespace DynamicValue

namespace Value

mutual

/-- Numbers by value, lists by length and then by the first elements that differ, everything
else by text. -/
def compare : Value → Value → Ordering
  | .list xs, .list ys => (Ord.compare xs.length ys.length).then (compareEach xs ys)
  | .number x, .number y => x.compare y
  | .null, .null => .eq
  | a, b => Ord.compare a.render b.render

/-- The order of the first elements that differ. -/
def compareEach : List Value → List Value → Ordering
  | x :: xs, y :: ys => (x.compare y).then (compareEach xs ys)
  | _, _ => .eq

end

mutual

/-- The same kind and the same content, where the two zeros are equal and so are all NaNs. -/
def equals : Value → Value → Bool
  | .null, .null => true
  | .number x, .number y => x.equals y
  | .text s, .text t => s == t
  | .list xs, .list ys => xs.length == ys.length && equalsEach xs ys
  | _, _ => false

/-- Whether the elements are equal as far as both lists go. -/
def equalsEach : List Value → List Value → Bool
  | x :: xs, y :: ys => x.equals y && equalsEach xs ys
  | _, _ => true

end

instance : BEq Value := ⟨equals⟩

instance : Ord Value := ⟨compare⟩

instance : LT Value := ltOfOrd

instance : LE Value := leOfOrd

end Value

namespace Items

/-- The order of a list against any value, lists again by length and then by the first elements
that differ, all other values by text. -/
def compare (items : Items) (other : Value) : Ordering :=
  match other with
  | .list others =>
    (Ord.compare items.length others.length).then
      ((List.zipWith Value.compare items others).find? (· != .eq) |>.getD .eq)
  | _ => Ord.compare items.render other.render

/-- Equality of two lists, with no value around either. -/
def same (items others : Items) : Bool :=
  items.length == others.length && (items.zip others).all fun (x, y) => x.equals y

/-- Equality of a list with any value. -/
def equals (items : Items) (other : Value) : Bool :=
  match other with
  | .list others => items.same others
  | _ => false

/-- The order of the elements is the first among the orders of pairs that is not level. -/
theorem compareEach_eq_find? (xs ys : Items) :
    Value.compareEach xs ys =
      ((List.zipWith Value.compare xs ys).find? (· != .eq) |>.getD .eq) := by
  induction xs generalizing ys with
  | nil => cases ys <;> rfl
  | cons x xs ih =>
      cases ys with
      | nil => rfl
      | cons y ys =>
          rw [Value.compareEach, ih, List.zipWith_cons_cons, List.find?_cons]
          cases x.compare y <;> rfl

/-- Equality of the elements, as far as both lists go, is equality in all pairs. -/
theorem equalsEach_eq_all (xs ys : Items) :
    Value.equalsEach xs ys = (xs.zip ys).all fun (x, y) => x.equals y := by
  induction xs generalizing ys with
  | nil => cases ys <;> rfl
  | cons x xs ih =>
      cases ys with
      | nil => rfl
      | cons y ys => rw [Value.equalsEach, ih, List.zip_cons_cons, List.all_cons]

/-- A list is ordered against a value as the value around it is. -/
theorem compare_eq (items : Items) (other : Value) :
    items.compare other = (Value.list items).compare other := by
  cases other with
  | list others => rw [compare, Value.compare, compareEach_eq_find?]
  | null | number | text => rfl

theorem same_eq (items others : Items) :
    items.same others = (Value.list items).equals (.list others) := by
  rw [same, Value.equals, equalsEach_eq_all]

/-- A list is equal to a value if the value around it is. -/
theorem equals_eq (items : Items) (other : Value) :
    items.equals other = (Value.list items).equals other := by
  cases other with
  | list others => exact items.same_eq others
  | null | number | text => rfl

end Items

end DynamicValue
