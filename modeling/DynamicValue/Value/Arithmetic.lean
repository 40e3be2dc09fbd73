import DynamicValue.Number.Arithmetic
import DynamicValue.Number.Integer
import DynamicValue.Outcome
import DynamicValue.Text.Repeat
import DynamicValue.Text.Search
import DynamicValue.Value.Render

/-!
Arithmetic on values. Two numbers are calculated with; a list on the left is worked through element
by element, against the elements of a list on the right or against any other value as a whole; all
other pairs are worked on as texts.
-/

namespace DynamicValue

namespace Value

/-- The number of times a text may be repeated by: a whole number that is not negative. -/
def repetitions? (x : Number) : Option Nat :=
  if x.isIntegral && 0 ≤ x.scaled then some x.truncate.toNat else none

/-- Adding joins the two texts, subtracting removes the right text from the left one, and
multiplying repeats a text. Nothing else is possible without numbers. -/
def textual (op : Arithmetic) (left right : Value) : Except Fault Value :=
  let refused := .error { cause := .invalidOperand op.symbol left.kind.name right.kind.name }
  match op, left, right with
  | .add, _, _ => .ok (.text (left.render ++ right.render))
  | .subtract, _, _ =>
    .ok (.text (String.ofList (Text.removeAll right.render.toList left.render.toList)))
  | .multiply, .text s, .number x =>
    match repetitions? x with
    | some count =>
      if s.utf8ByteSize * count ≤ Text.maxBytes then .ok (.text (Text.repeated s count))
      else .error { cause := .stringTooLong Text.maxBytes }
    | none => refused
  | _, _, _ => refused

/-- Arithmetic on two values as wholes. A list on the right counts as its text. -/
def scalar (op : Arithmetic) : Value → Value → Except Fault Value
  | .number x, .number y => .ok (.number (x.arith op y))
  | left, right => textual op left right

/-- Two lists must have the same length. If they do not, this is logged and is a fault. -/
def checkShape (op : Arithmetic) (left right : Nat) : Outcome Unit := do
  if left ≠ right then
    Outcome.emit (.shapeMismatch op left right)
    Outcome.fail (.shapeMismatch left right)

mutual

/-- Arithmetic on values of any nesting. The shape of two lists is checked before their elements,
and the first fault among the elements is the fault of the whole. -/
def arith (op : Arithmetic) : Value → Value → Outcome Value
  | .list xs, .list ys => do
    checkShape op xs.length ys.length
    let items ← arithEach op xs ys
    return .list items
  | .list xs, right => do
    let items ← arithAll op xs right
    return .list items
  | left, right => Outcome.ofExcept (scalar op left right)

/-- Element against element. -/
def arithEach (op : Arithmetic) : List Value → List Value → Outcome (List Value)
  | x :: xs, y :: ys => do
    let item ← arith op x y
    let items ← arithEach op xs ys
    return item :: items
  | _, _ => return []

/-- Every element against one value. -/
def arithAll (op : Arithmetic) : List Value → Value → Outcome (List Value)
  | [], _ => return []
  | x :: xs, right => do
    let item ← arith op x right
    let items ← arithAll op xs right
    return item :: items

end

end Value

namespace Items

/-- Arithmetic with a list on the left, which gives a list. -/
def arith (op : Arithmetic) (items : Items) (right : Value) : Outcome Items :=
  match right with
  | .list others => do
    Value.checkShape op items.length others.length
    Value.arithEach op items others
  | other => Value.arithAll op items other

end Items

end DynamicValue
