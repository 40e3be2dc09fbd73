import DynamicValue.Items.Index
import DynamicValue.Value.Order

/-! Reading a list: single elements, ranges, and the search for an element. -/

namespace DynamicValue

namespace Items

/-- The element that the key addresses. -/
def get (items : Items) (key : Value) : Except Fault Value := do
  let i ← items.position key
  return items.getD i .null

/-- Whether the key addresses an element. A key that is no number is a fault here too. -/
def has (items : Items) (key : Value) : Except Fault Bool := do
  let i ← index key
  return inBounds i items.length

/-- A bound of a slice: an index from the start to just past the end stays, any other one, on
either side, becomes the length. -/
def sliceBound (bound : Int) (len : Nat) : Nat :=
  if 0 ≤ bound ∧ bound ≤ len then bound.toNat else len

/-- The elements from one bound up to the other, or none if the bounds are the wrong way round. -/
def slice (items : Items) (start stop : Int) : Items :=
  let start := sliceBound start items.length
  let stop := sliceBound stop items.length
  (items.drop start).take (stop - start)

/-- The position of the first element equal to the value, or null. -/
def indexOf (items : Items) (value : Value) : Value :=
  .ofPosition? (items.findIdx? (·.equals value))

end Items

end DynamicValue
