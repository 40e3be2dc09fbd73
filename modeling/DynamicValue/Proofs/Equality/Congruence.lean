import DynamicValue.Items.Edit
import DynamicValue.Proofs.Equality.Canonical
import DynamicValue.Proofs.Order.Antisymmetry
import DynamicValue.Value.Membership

/-!
Equality as an equivalence that nothing sees through. Equal values may differ in the sign of a zero
or in the bits of a NaN, at any depth; whatever is asked of them or of other values with their help
has one answer.
-/

namespace DynamicValue

namespace Value

theorem compare_canonical_right (a b : Value) : a.compare b.canonical = a.compare b := by
  rw [b.canonical.compare_swap a, compare_canonical_left, ← b.compare_swap a]

/-- A search passes over the same elements in canonical form, and stops at the same place. -/
theorem findIdx?_map_canonical (items : Items) (value : Value) :
    (items.map canonical).findIdx? (·.equals value) = items.findIdx? (·.equals value) := by
  rw [List.findIdx?_map]
  congr 1
  funext item
  exact item.equals_canonical_left value

/-- The value searched in may be put in canonical form. -/
theorem memberIndex_canonical (value needle : Value) :
    value.canonical.memberIndex needle = value.memberIndex needle := by
  cases value with
  | null | number | text => rfl
  | list items =>
      rw [canonical_list, memberIndex, memberIndex, Items.indexOf, Items.indexOf,
        findIdx?_map_canonical]

/-- The value searched for enters as its text, by its kind, or in tests for equality. -/
theorem memberIndex_congr_needle {a a' : Value} (h : a.equals a' = true) (value : Value) :
    value.memberIndex a = value.memberIndex a' := by
  have hKind : a.kind = a'.kind := eq_of_equals kind_canonical h
  cases value with
  | null | number => simp only [memberIndex, hKind]
  | text s => rw [memberIndex, memberIndex, eq_of_equals render_canonical h]
  | list items =>
      have hTest : (fun item : Value => item.equals a) = fun item => item.equals a' := by
        funext item
        rw [equals_symm item a, equals_symm item a', equals_congr_left h]
      rw [memberIndex, memberIndex, Items.indexOf, Items.indexOf, hTest]

/-- A key is read as an index, or refused for its kind. -/
theorem index_canonical (key : Value) : Items.index key.canonical = Items.index key := by
  cases key with
  | null | text => rfl
  | number x => exact congrArg Except.ok x.truncate_canonical
  | list items => rw [canonical_list]; rfl

theorem position_canonical (items : Items) (key : Value) :
    items.position key.canonical = items.position key := by
  rw [Items.position, Items.position, index_canonical]

/-- Deleting looks at a key as at an index and for its kind, and so removes the same element for
equal keys. -/
theorem delete_canonical (items : Items) (key : Value) :
    items.delete key.canonical = items.delete key := by
  cases key with
  | null | text => rfl
  | number x =>
      rw [canonical]
      simp only [Items.delete, x.truncate_canonical]
  | list values => rw [canonical_list]; rfl

/-- No question asked here tells one value from the other: their texts, kinds and readings, their
order and equality with others, the search in them and for them, and their use as keys. -/
structure Indistinguishable (a a' : Value) : Prop where
  render : a.render = a'.render
  pretty : a.pretty = a'.pretty
  inspect : a.inspect = a'.inspect
  kind : a.kind = a'.kind
  isTrue : a.isTrue = a'.isTrue
  truncate : a.toNumber.truncate = a'.toNumber.truncate
  compareLeft : ∀ b : Value, a.compare b = a'.compare b
  compareRight : ∀ b : Value, b.compare a = b.compare a'
  equals : ∀ b : Value, a.equals b = a'.equals b
  needle : ∀ b : Value, b.memberIndex a = b.memberIndex a'
  haystack : ∀ b : Value, a.memberIndex b = a'.memberIndex b
  get : ∀ items : Items, items.get a = items.get a'
  has : ∀ items : Items, items.has a = items.has a'
  put : ∀ (items : Items) (value : Value), items.put a value = items.put a' value
  delete : ∀ items : Items, items.delete a = items.delete a'

/-- Each question is answered from the canonical form alone, or from a test for equality, so that
equal values get the same answer to all of them. -/
theorem Indistinguishable.of_equals {a a' : Value} (h : a.equals a' = true) :
    Indistinguishable a a' where
  render := eq_of_equals render_canonical h
  pretty := eq_of_equals pretty_canonical h
  inspect := eq_of_equals inspect_canonical h
  kind := eq_of_equals kind_canonical h
  isTrue := eq_of_equals isTrue_canonical h
  truncate := eq_of_equals (f := fun v => v.toNumber.truncate) truncate_toNumber_canonical h
  compareLeft b := eq_of_equals (f := (compare · b)) (compare_canonical_left · b) h
  compareRight b := eq_of_equals (compare_canonical_right b) h
  equals := equals_congr_left h
  needle := memberIndex_congr_needle h
  haystack b := eq_of_equals (f := (memberIndex · b)) (memberIndex_canonical · b) h
  get items := by
    have hPosition := eq_of_equals (position_canonical items) h
    rw [Items.get, Items.get, hPosition]
  has items := by
    have hIndex := eq_of_equals index_canonical h
    rw [Items.has, Items.has, hIndex]
  put items value := by
    have hPosition := eq_of_equals (position_canonical items) h
    rw [Items.put, Items.put, hPosition]
  delete items := eq_of_equals (delete_canonical items) h

end Value

/-- Equality is an equivalence on values of any nesting, in all the forms in which it can be asked,
and equal values cannot be told apart. -/
theorem equals_congruence :
    (∀ a : Value, a.equals a = true) ∧
    (∀ a b : Value, a.equals b = b.equals a) ∧
    (∀ a b c : Value, a.equals b = true → b.equals c = true → a.equals c = true) ∧
    (∀ a b : Value, (a == b) = a.equals b) ∧
    (∀ (items : Items) (b : Value), Items.equals items b = (Value.list items).equals b) ∧
    (∀ items others : Items, Items.same items others = (Value.list items).equals (.list others)) ∧
    ∀ a a' : Value, a.equals a' = true → a.Indistinguishable a' := by
  refine ⟨Value.equals_refl, Value.equals_symm, ?_, fun a b => rfl, Items.equals_eq,
    Items.same_eq, ?_⟩
  · intro a b c hFirst hSecond
    exact Value.equals_trans hFirst hSecond
  · intro a a' h
    exact .of_equals h

end DynamicValue
