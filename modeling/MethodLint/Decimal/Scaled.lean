/-!
# Scaling by powers of ten

A decimal numeral is worth its significand times a power of ten.  Here the
product is taken in doubles: one multiplication or division by the double
nearest to the power, and for powers below the range of doubles several
divisions.  The result may differ from the nearest double in its last place.
-/

namespace MethodLint
namespace Decimal

/-- The greatest exponent of a power of ten among the doubles. -/
def topExponent : Nat :=
  308

def powerOfTen (exponent : Nat) : Float :=
  Float.ofScientific 1 false exponent

/-- Divide by ten to the given power, by at most `10 ^ 308` at a time. -/
def divideByPower (x : Float) (exponent : Nat) : Float :=
  if exponent ≤ topExponent then
    x / powerOfTen exponent
  else if x == 0 then
    x
  else
    divideByPower (x / powerOfTen topExponent) (exponent - topExponent)
termination_by exponent
decreasing_by
  simp only [topExponent] at *
  omega

/-- The significand times a power of ten; nothing if it exceeds every double. -/
def scaled? (significand : Nat) : Int → Option Float
  | .ofNat exponent =>
      let x := Float.ofNat significand
      if exponent ≤ topExponent then
        let product := x * powerOfTen exponent
        if product.isInf then none else some product
      else if x == 0 then
        some x
      else
        none
  | .negSucc exponent =>
      some (divideByPower (Float.ofNat significand) (exponent + 1))

end Decimal
end MethodLint
