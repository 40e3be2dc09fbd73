import DynamicValue.Fault
import DynamicValue.Log
import DynamicValue.Number.Nearest

/-! Dynamic values: null, numbers, texts and lists of values, and how each reads as the others. -/

namespace DynamicValue

inductive Value where
  | null
  | number (x : Number)
  | text (s : String)
  | list (items : List Value)

/-- The elements of a list value. -/
abbrev Items := List Value

namespace Value

/-- Induction over values of any nesting: what holds of all elements of a list may be used for
the list. -/
@[induction_eliminator]
theorem induction {motive : Value → Prop} (null : motive .null)
    (number : ∀ x, motive (.number x)) (text : ∀ s, motive (.text s))
    (list : ∀ items : Items, (∀ v ∈ items, motive v) → motive (.list items))
    (value : Value) : motive value :=
  match value with
  | .null => null
  | .number x => number x
  | .text s => text s
  | .list items => list items fun v _ => induction null number text list v

def kind : Value → Kind
  | .null => .null
  | .number _ => .number
  | .text _ => .text
  | .list _ => .list

/-- Null, the zeros and what is empty are false; NaN is true. -/
def isTrue : Value → Bool
  | .null => false
  | .number x => x.isTrue
  | .text s => !s.isEmpty
  | .list items => !items.isEmpty

/-- The value read as a number. Null is zero, texts count their characters and lists their
elements. -/
def toNumber : Value → Number
  | .null => .zero
  | .number x => x
  | .text s => .ofNat s.length
  | .list items => .ofNat items.length

/-- The value as the number it is, without any reading. The context says in the message what it
was needed for. -/
def asNumber (value : Value) (context : String) : Except Fault Number :=
  match value with
  | .number x => .ok x
  | other => .error { cause := .typeMismatch context other.kind.name }

/-- The elements of a list; the other kinds have none. -/
def items? : Value → Option Items
  | .list items => some items
  | _ => none

/-- Truth as a number: one or zero. -/
def ofBool (b : Bool) : Value := .number (.ofNat b.toNat)

/-- A number for a position that was found, null for none. -/
def ofPosition? (position : Option Nat) : Value :=
  match position with
  | some n => .number (.ofNat n)
  | none => .null

end Value

end DynamicValue
