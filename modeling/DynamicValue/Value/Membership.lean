import DynamicValue.Items.Access
import DynamicValue.Text.Search

/-! Where a value occurs in another one. -/

namespace DynamicValue

namespace Value

/-- Where the needle occurs in the value: in a list the position of the first equal element, in a
text how many characters stand before the needle's text, and null if it does not occur. Null and
numbers hold nothing and are refused. -/
def memberIndex (value needle : Value) : Except Fault Value :=
  match value with
  | .list items => .ok (Items.indexOf items needle)
  | .text s => .ok (.ofPosition? (Text.position? needle.render.toList s.toList))
  | .null | .number _ =>
    .error { cause := .invalidOperand Operator.member.symbol needle.kind.name value.kind.name }

end Value

end DynamicValue
