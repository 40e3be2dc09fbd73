import DynamicValue.Number.Basic
import DynamicValue.Operator

/-! The four operations on numbers, with the rounding and the special cases of IEEE 754. -/

namespace DynamicValue

namespace Number

def toFloat (x : Number) : Float := Float.ofBits x.bits

def ofFloat (x : Float) : Number := ⟨x.toBits⟩

/-- Never fails: dividing by zero gives an infinity or NaN. -/
def arith (op : Arithmetic) (x y : Number) : Number :=
  ofFloat <|
    match op with
    | .add => x.toFloat + y.toFloat
    | .subtract => x.toFloat - y.toFloat
    | .multiply => x.toFloat * y.toFloat
    | .divide => x.toFloat / y.toFloat

end Number

end DynamicValue
