import DynamicValue.Number.Basic

/-! Numbers as integers: which are whole, and the saturating truncation that indexes and counts use. -/

namespace DynamicValue

namespace Number

/-- The bounds of the 64-bit signed integers. -/
def minInteger : Int := -0x8000000000000000

def maxInteger : Int := 0x7fffffffffffffff

/-- Whether the number is finite and has no fraction. -/
def isIntegral (x : Number) : Bool := x.isFinite && x.units % unitsPerOne == 0

/-- The integer that remains when the fraction is dropped, brought into the 64-bit range from
outside it. NaN goes to zero. -/
def truncate (x : Number) : Int :=
  if x.isNaN then 0
  else max minInteger (min maxInteger (x.scaled.tdiv unitsPerOne))

end Number

end DynamicValue
