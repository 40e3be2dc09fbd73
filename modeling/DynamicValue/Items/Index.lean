import DynamicValue.Number.Integer
import DynamicValue.Value.Basic

/-!
Positions in a list. Reading and replacing take an index as it is, removing and inserting wrap it
around, so that `-1` is the last element.
-/

namespace DynamicValue

/-- The name of index wrapping in faults. -/
def wrappingOperation : String := "list index normalization"

/-- The index moved up by a multiple of the length that makes it positive, whatever it was. -/
def shiftedIndex (index : Int) (len : Nat) : Int :=
  index + ((index.natAbs / len : Nat) + 2) * len

/-- The position in a list of length `len` that an index wraps around to. An index within the list
is its own position; an empty list has no position. -/
def normalizeIndex (index : Int) (len : Nat) : Except Fault Nat :=
  if len = 0 then .error { cause := .arithmeticFault wrappingOperation }
  else if 0 ≤ index ∧ index < len then .ok index.toNat
  else .ok (shiftedIndex index len % len).toNat

namespace Items

/-- What a key is needed for, in the fault of a key that is no number. -/
def indexContext : String := "'address' to a list index"

/-- The index that a key names: a number, truncated. -/
def index (key : Value) : Except Fault Int := do
  let x ← key.asNumber indexContext
  return x.truncate

/-- Whether an index is within a list of length `len` as it is. -/
def inBounds (index : Int) (len : Nat) : Bool := 0 ≤ index && index < len

/-- The position that a key addresses without wrapping. -/
def position (items : Items) (key : Value) : Except Fault Nat := do
  let i ← index key
  if inBounds i items.length then return i.toNat
  else throw { cause := .indexOutOfRange i items.length }

end Items

end DynamicValue
