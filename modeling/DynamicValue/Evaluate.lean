import DynamicValue.Items.Access
import DynamicValue.Value.Arithmetic

/-! Evaluation of an operator between two values. -/

namespace DynamicValue

/-- Whether the test holds between two values. -/
def Comparison.holds (test : Comparison) (left right : Value) : Bool :=
  match test with
  | .equal => left.equals right
  | .notEqual => !left.equals right
  | .less => left.compare right == .lt
  | .lessOrEqual => left.compare right != .gt
  | .greater => left.compare right == .gt
  | .greaterOrEqual => left.compare right != .lt

namespace Operator

/-- The value of the operator, without the entry for the evaluation itself. Members are looked for
in lists only. -/
def apply (op : Operator) (left right : Value) : Outcome Value :=
  match op with
  | .arithmetic op => left.arith op right
  | .comparison test => pure (.ofBool (test.holds left right))
  | .member =>
    match right.items? with
    | some items => pure (items.indexOf left)
    | none => Outcome.fail (.invalidOperand op.symbol left.kind.name right.kind.name)

/-- Logs the evaluation, then evaluates. -/
def evaluate (op : Operator) (left right : Value) : Outcome Value := do
  Outcome.emit (.evaluation left.kind right.kind op)
  op.apply left right

/-- The entry in the log changes no answer. -/
theorem evaluate_result (op : Operator) (left right : Value) :
    (op.evaluate left right).result = (op.apply left right).result := rfl

end Operator

end DynamicValue
