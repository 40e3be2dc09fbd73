import DynamicValue.Number.Basic

/-! The order of numbers: by value, with all NaNs equal to each other and above everything else. -/

namespace DynamicValue

namespace Number

/-- A total order up to `equals`: the two zeros are equal, and so are any two NaNs. -/
def compare (x y : Number) : Ordering :=
  match x.isNaN, y.isNaN with
  | true, true => .eq
  | true, false => .gt
  | false, true => .lt
  | false, false => Ord.compare x.scaled y.scaled

def equals (x y : Number) : Bool := x.compare y == .eq

end Number

end DynamicValue
