import DynamicValue.Number.Integer
import DynamicValue.Number.Shortest

/-!
The two texts of a number. `render` is what an expression shows: whole numbers below `10^15` as
integers, everything else as the shortest decimal that reads back, never with an exponent.
`literal` tells a number from an integer, shows the sign of zero and turns to powers of ten sooner;
`inspect`, the diagnostic text, holds the literal.
-/

namespace DynamicValue

namespace Number

/-- Magnitudes below this many print as integers if they are whole. -/
def integerLimit : Nat := 1000000000000000

def signText (x : Number) : String := if x.negative then "-" else ""

/-- NaN is written without its sign, negative zero as `0`. -/
def render (x : Number) : String :=
  if x.isNaN then "NaN"
  else if x.isIntegral && x.units < integerLimit * unitsPerOne then x.truncate.repr
  else if x.isFinite then x.signText ++ (shortest x.pattern).positional
  else x.signText ++ "inf"

/-- Positional from `10^-4` up to `10^16`, with a power of ten outside; a whole number in
positional form ends in `.0`. -/
def literal (x : Number) : String :=
  if x.isNaN then "NaN"
  else if !x.isFinite then x.signText ++ "inf"
  else if x.units = 0 then x.signText ++ "0.0"
  else if 10000000000000000 * unitsPerOne ≤ x.units || x.units * 10000 < unitsPerOne then
    x.signText ++ (shortest x.pattern).scientific
  else if x.isIntegral then x.signText ++ (shortest x.pattern).positional ++ ".0"
  else x.signText ++ (shortest x.pattern).positional

def inspect (x : Number) : String := "NumericValue(" ++ x.literal ++ ")"

end Number

end DynamicValue
