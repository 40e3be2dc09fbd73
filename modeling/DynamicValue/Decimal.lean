/-! Decimals and the two ways of writing one: positional and with an exponent of ten. -/

namespace DynamicValue

/-- The decimal `digits * 10^exponent`. -/
structure Decimal where
  digits : Nat
  exponent : Int
deriving DecidableEq

namespace Decimal

/-- Numerator of the value as a quotient of natural numbers. -/
def numerator (d : Decimal) : Nat := d.digits * Nat.pow 10 d.exponent.toNat

/-- Denominator of the value as a quotient of natural numbers. -/
def denominator (d : Decimal) : Nat := Nat.pow 10 (-d.exponent).toNat

/-- The same value with no zero at the end of its digits. Zero itself is left alone. -/
def trim (d : Decimal) : Decimal :=
  if d.digits ≠ 0 ∧ d.digits % 10 = 0 then trim ⟨d.digits / 10, d.exponent + 1⟩ else d
termination_by d.digits
decreasing_by omega

def digitChars (d : Decimal) : List Char := Nat.toDigits 10 d.digits

/-- All digits around the point, with zeros where the digits do not reach it. A value without
places after the point has no point. -/
def positional (d : Decimal) : String :=
  match d.exponent with
  | .ofNat zeros => String.ofList (d.digitChars ++ List.replicate zeros '0')
  | .negSucc last =>
    let places := last + 1
    let padded := List.replicate (places + 1 - d.digitChars.length) '0' ++ d.digitChars
    let whole := padded.length - places
    String.ofList (padded.take whole ++ '.' :: padded.drop whole)

/-- One digit before the point, the others after it, and the power of ten. A single digit has no
point. -/
def scientific (d : Decimal) : String :=
  let mantissa := match d.digitChars with
    | first :: second :: rest => first :: '.' :: second :: rest
    | single => single
  let power := d.exponent + (d.digitChars.length - 1 : Nat)
  String.ofList mantissa ++ "e" ++ power.repr

end Decimal

end DynamicValue
