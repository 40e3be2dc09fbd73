import DynamicValue.Value.Basic

/-!
Paths of element indexes, from the outermost list inwards. A path leads into a value, and beside it
along a second one, which goes into its own elements as long as it is a list and stays what it is
from then on.
-/

namespace DynamicValue

/-- The indexes that lead from a value to one of its parts. -/
abbrev Path := List Nat

/-- The order of a walk: a list comes before what is in it, and its elements from left to right. -/
inductive Path.Before : Path → Path → Prop where
  | outside (i : Nat) (path : Path) : Before [] (i :: path)
  | left {i j : Nat} (less : i < j) (p q : Path) : Before (i :: p) (j :: q)
  | inside (i : Nat) {p q : Path} (before : Before p q) : Before (i :: p) (i :: q)

/-- The walk passes all paths in one order: of two that differ one comes first. -/
theorem Path.before_trichotomy (p q : Path) : p.Before q ∨ p = q ∨ q.Before p := by
  induction p generalizing q with
  | nil => cases q with
    | nil => exact .inr (.inl rfl)
    | cons j q => exact .inl (.outside j q)
  | cons i p ih => cases q with
    | nil => exact .inr (.inr (.outside i p))
    | cons j q =>
        rcases Nat.lt_trichotomy i j with hLess | rfl | hMore
        · exact .inl (.left hLess p q)
        · rcases ih q with hBefore | rfl | hAfter
          · exact .inl (.inside i hBefore)
          · exact .inr (.inl rfl)
          · exact .inr (.inr (.inside i hAfter))
        · exact .inr (.inr (.left hMore q p))

namespace Value

/-- The element at an index. Only lists have elements. -/
def child? (v : Value) (i : Nat) : Option Value := v.items?.bind (·[i]?)

/-- What goes with the element at an index of another list: the element of a list, if it is long
enough, and any other value as it is. -/
def partner? (v : Value) (i : Nat) : Option Value :=
  match v with
  | .list items => items[i]?
  | other => some other

/-- The part that a path leads to. -/
def at? (v : Value) : Path → Option Value
  | [] => some v
  | i :: path => (v.child? i).bind (·.at? path)

/-- What goes with the part that a path leads to in another value. -/
def along? (v : Value) : Path → Option Value
  | [] => some v
  | i :: path => (v.partner? i).bind (·.along? path)

/-- How many elements a list has. The other values have no length. -/
def length? (v : Value) : Option Nat := v.items?.map List.length

@[simp] theorem child?_list (xs : Items) (i : Nat) : (Value.list xs).child? i = xs[i]? := rfl

@[simp] theorem partner?_list (xs : Items) (i : Nat) : (Value.list xs).partner? i = xs[i]? := rfl

@[simp] theorem at?_nil (v : Value) : v.at? [] = some v := rfl

@[simp] theorem along?_nil (v : Value) : v.along? [] = some v := rfl

@[simp] theorem length?_list (xs : Items) : (Value.list xs).length? = some xs.length := rfl

/-- Only lists lead further, so the part before the last index of a path is one. -/
theorem at?_cons_eq_some_iff {v w : Value} {i : Nat} {path : Path} :
    v.at? (i :: path) = some w ↔
      ∃ xs x, v = .list xs ∧ xs[i]? = some x ∧ x.at? path = some w := by
  cases v <;> simp [at?, child?, items?, Option.bind_eq_some_iff]

theorem at?_list_cons (xs : Items) (i : Nat) (path : Path) :
    (Value.list xs).at? (i :: path) = xs[i]?.bind (·.at? path) := rfl

theorem at?_cons_of_length?_eq_none {v : Value} (h : v.length? = none) (i : Nat) (path : Path) :
    v.at? (i :: path) = none := by
  cases v with
  | list xs => simp at h
  | null | number | text => rfl

/-- The other value is followed by way of partners, and therefore also through a value that is no
list, which goes along unchanged. -/
theorem along?_cons_eq_some_iff {v w : Value} {i : Nat} {path : Path} :
    v.along? (i :: path) = some w ↔ ∃ y, v.partner? i = some y ∧ y.along? path = some w := by
  simp [along?, Option.bind_eq_some_iff]

/-- What meets the elements of a list of `count` elements from the right: the elements of a list,
and copies of any other value. -/
def spread (v : Value) (count : Nat) : Items :=
  match v with
  | .list items => items
  | other => List.replicate count other

theorem spread_of_length?_eq_none {v : Value} (h : v.length? = none) (count : Nat) :
    v.spread count = List.replicate count v := by
  cases v with
  | list items => cases h
  | null | number | text => rfl

/-- At each index that the left list has, the spread value has the partner of the element there. -/
theorem getElem?_spread (v : Value) {i count : Nat} (h : i < count) :
    (v.spread count)[i]? = v.partner? i := by
  cases v with
  | list xs => rfl
  | null | number | text => simp [spread, partner?, h]

/-- The lengths differ only where a list meets a list. -/
theorem length_spread_ne_iff (v : Value) (count : Nat) :
    (v.spread count).length ≠ count ↔ ∃ ys, v = .list ys ∧ ys.length ≠ count := by
  cases v <;> simp [spread]

end Value

end DynamicValue
