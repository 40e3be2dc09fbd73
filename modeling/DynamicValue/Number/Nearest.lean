import DynamicValue.Number.Basic

/-! Rounding of a nonnegative quotient to the nearest double, a half going to the even pattern. -/

namespace DynamicValue

namespace Number

/-- The natural number nearest to `num / den`, a half going to the even neighbour. -/
def roundHalfEven (num den : Nat) : Nat :=
  let quotient := num / den
  let twice := 2 * (num % den)
  if twice < den ∨ (twice = den ∧ quotient % 2 = 0) then quotient else quotient + 1

/-- The pattern of the double nearest to `num / den`. The quotient is counted in units of
`2^-1074` and rounded to 53 significant bits, or to a whole unit if it has fewer; a carry out of
the mantissa runs into the exponent field, which is where it belongs. Magnitudes beyond the
largest double go to infinity. -/
def nearestPattern (num den : Nat) : Nat :=
  let scaled := num * unitsPerOne
  let shift := (scaled / den).log2 - 52
  min (shift * exponentBit + roundHalfEven scaled (den <<< shift)) infinityPattern

def ofNat (n : Nat) : Number := ofPattern false (nearestPattern n 1)

/-- The double nearest to an integer. Zero is positive. -/
def ofInt (n : Int) : Number := ofPattern (n < 0) (nearestPattern n.natAbs 1)

end Number

end DynamicValue
