/-!
Numbers are doubles, kept as their 64-bit patterns. Everything here but the four arithmetic
operations is exact arithmetic on the pattern: a finite number is a whole multiple of `2^-1074`,
the smallest positive double, so order, truncation and rendering are questions about integers.
-/

namespace DynamicValue

/-- A double-precision number, given by its bits: sign, eleven exponent bits, 52 mantissa bits.
NaNs of different sign or payload are different numbers here, and so are the two zeros. -/
structure Number where
  bits : UInt64
deriving DecidableEq

namespace Number

/-- The sign bit, `2^63`. -/
def signBit : Nat := 0x8000000000000000

/-- The lowest bit of the exponent field, `2^52`, which is also the leading bit that a mantissa
leaves out. -/
def exponentBit : Nat := 0x10000000000000

/-- The pattern of infinity: an exponent field of ones and a mantissa of zeros. Smaller patterns
are finite, larger ones are NaN. -/
def infinityPattern : Nat := 0x7ff0000000000000

/-- One, counted in units of `2^-1074`. -/
def unitsPerOne : Nat := 1 <<< 1074

/-- The magnitude of a pattern in units of `2^-1074`. Patterns with an empty exponent field count
the units themselves; in all others the field shifts a mantissa with its leading bit restored. The
value at `infinityPattern` is the power of two that follows the largest finite magnitude. -/
def unitsOf (pattern : Nat) : Nat :=
  if pattern < exponentBit then pattern
  else (exponentBit + pattern % exponentBit) <<< (pattern / exponentBit - 1)

/-- Whether the sign bit is set. Negative zero and NaNs may have it. -/
def negative (x : Number) : Bool := signBit ≤ x.bits.toNat

/-- The bits below the sign. -/
def pattern (x : Number) : Nat := x.bits.toNat % signBit

/-- The number with the given sign and the given bits below it. -/
def ofPattern (negative : Bool) (pattern : Nat) : Number :=
  ⟨UInt64.ofNat (if negative then signBit + pattern else pattern)⟩

def isNaN (x : Number) : Bool := infinityPattern < x.pattern

def isFinite (x : Number) : Bool := x.pattern < infinityPattern

/-- The magnitude in units of `2^-1074`. -/
def units (x : Number) : Nat := unitsOf x.pattern

/-- The signed value in units of `2^-1074`. Infinities lie beyond all finite values; the two
zeros have the same value. -/
def scaled (x : Number) : Int := if x.negative then -(x.units : Int) else x.units

def zero : Number := ⟨0⟩

/-- The only numbers that do not count as true are the two zeros. -/
def isTrue (x : Number) : Bool := x.pattern != 0

end Number

end DynamicValue
