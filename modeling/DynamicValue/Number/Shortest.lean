import DynamicValue.Decimal
import DynamicValue.Number.Nearest

/-!
The shortest decimal that rounds back to a given double. For one digit, two digits and so on, the
two neighbours of the exact value on that decimal grid are tried; the first grid with a neighbour
that rounds back wins, of two such neighbours the nearer, and of two equally near ones the upper.
-/

namespace DynamicValue

namespace Number

/-- The power of ten just above the magnitude: a nonzero magnitude `v` has
`10^(leadingPower - 1) ≤ v < 10^leadingPower`. The scale `10^330` lifts the smallest double above
one. -/
def leadingPower (pattern : Nat) : Int :=
  ((Nat.toDigits 10 (unitsOf pattern * Nat.pow 10 330 / unitsPerOne)).length : Int) - 330

/-- Whether a decimal rounds to the double with this pattern. -/
def readsBack (pattern : Nat) (d : Decimal) : Bool :=
  nearestPattern d.numerator d.denominator == pattern

/-- Of the two decimals around a magnitude one that rounds back to its pattern, if there is one. If
both do, it is the nearer one. -/
def nearerOf? (pattern : Nat) (lower upper : Decimal) (lowerIsNearer : Bool) : Option Decimal :=
  if readsBack pattern lower && (lowerIsNearer || !readsBack pattern upper) then some lower
  else if readsBack pattern upper then some upper
  else none

/-- The best decimal with `count` digits that rounds back to the pattern, if there is one. -/
def candidate? (pattern count : Nat) : Option Decimal :=
  let exponent := leadingPower pattern - count
  let num := unitsOf pattern * Nat.pow 10 (-exponent).toNat
  let den := unitsPerOne * Nat.pow 10 exponent.toNat
  nearerOf? pattern ⟨num / den, exponent⟩ ⟨num / den + 1, exponent⟩ (2 * (num % den) < den)

/-- The value of a finite pattern as a decimal, exactly: a half is `5 * 10^-1`. -/
def exactDecimal (pattern : Nat) : Decimal := ⟨unitsOf pattern * Nat.pow 5 1074, -1074⟩

/-- The shortest decimal that rounds back to a nonzero finite pattern, with no zero at the end of
its digits. Seventeen digits always suffice; the exact value stands behind them. -/
def shortest (pattern : Nat) : Decimal :=
  (((List.range 17).findSome? fun i => candidate? pattern (i + 1)).getD (exactDecimal pattern)).trim

end Number

end DynamicValue
