/-!
# The shortest decimal of a double

A double stands for every real number that rounds to it.  Its text is the
decimal with the fewest digits among those numbers, the nearest one if there
are several.

**Input.**  The bits of a double.

**Algorithm.**  The reals that round to `m * 2 ^ q` form an interval, whose
ends belong to it when `m` is even.  The powers of ten are tried from the
greatest down: on each, the two multiples around the double are tested, and the
first power with a multiple inside the interval gives the fewest digits.  All of it
is exact arithmetic on natural numbers.
-/

namespace MethodLint
namespace Decimal

/-- The weight of the leading bit that a normal double does not store. -/
def leadingBit : Nat :=
  0x10000000000000

def signBit : Nat :=
  0x8000000000000000

/--
A positive double and the reals that round to it, in one unit: the double is
`value` units, the reals reach from `low` to `high`, and a unit is
`numerator / denominator`.
-/
structure Rounding where
  value : Nat
  low : Nat
  high : Nat
  closed : Bool
  numerator : Nat
  denominator : Nat

namespace Rounding

/-- The reals that round to a positive finite double with the given bits. -/
def ofBits (bits : UInt64) : Rounding :=
  let fraction := bits.toNat % leadingBit
  let field := bits.toNat / leadingBit % 2048
  let mantissa := if field = 0 then fraction else fraction + leadingBit
  -- A unit is a quarter of the last place: `2 ^ (scale - 1077)`.
  let scale := if field = 0 then 1 else field
  let below := if fraction = 0 && 1 < field then 1 else 2
  { value := 4 * mantissa
    low := 4 * mantissa - below
    high := 4 * mantissa + 2
    closed := mantissa % 2 == 0
    numerator := Nat.pow 2 (scale - 1077)
    denominator := Nat.pow 2 (1077 - scale) }

/-- The multiple `count * up / down` lies in the interval. -/
def holds (r : Rounding) (count up down : Nat) : Bool :=
  let point := count * up * r.denominator
  let least := r.low * r.numerator * down
  let greatest := r.high * r.numerator * down
  if r.closed then
    least ≤ point && point ≤ greatest
  else
    least < point && point < greatest

/-- The multiple of `up / down` just below the double or at it. -/
def floor (r : Rounding) (up down : Nat) : Nat :=
  r.value * r.numerator * down / (up * r.denominator)

/-- The upper of the two multiples around the double is the nearer one. -/
def nearerAbove (r : Rounding) (count up down : Nat) : Bool :=
  let twice := 2 * (r.value * r.numerator * down)
  let middle := (2 * count + 1) * up * r.denominator
  middle < twice || (middle == twice && count % 2 == 1)

/-- The multiple of `up / down` to be taken, if one lies in the interval. -/
def pick? (r : Rounding) (up down : Nat) : Option Nat :=
  let count := r.floor up down
  let lower := 0 < count && r.holds count up down
  let upper := r.holds (count + 1) up down
  if lower && upper then
    some (if r.nearerAbove count up down then count + 1 else count)
  else if lower then
    some count
  else if upper then
    some (count + 1)
  else
    none

end Rounding

/-- Below this power of ten no double needs a digit. -/
def leastExponent : Int :=
  -343

/--
The digits and the exponent of the shortest decimal, tried from the power of
ten `leastExponent + steps` downward.
-/
def shortestFrom (r : Rounding) : Nat → Nat × Int
  | 0 => (r.floor 1 (Nat.pow 10 leastExponent.natAbs), leastExponent)
  | steps + 1 =>
      let exponent := leastExponent + (steps + 1)
      let up := Nat.pow 10 exponent.toNat
      let down := Nat.pow 10 (-exponent).toNat
      match r.pick? up down with
      | some count => (count, exponent)
      | none => shortestFrom r steps

/-- The shortest decimal of a positive finite double: digits and exponent. -/
def shortest (bits : UInt64) : Nat × Int :=
  shortestFrom (.ofBits bits) 652

/--
Lay out `digits * 10 ^ exponent` with a decimal point.  From `10 ^ -5` up to
`10 ^ 16` the notation is positional and has a digit on both sides of the
point; beyond, it is scientific, with a sign before the exponent.
-/
def layout (digits : Nat) (exponent : Int) : String :=
  let ds := Nat.toDigits 10 digits
  let point := ds.length + exponent
  if 0 ≤ exponent && point ≤ 16 then
    String.ofList (ds ++ List.replicate exponent.toNat '0') ++ ".0"
  else if 0 < point && point ≤ 16 then
    String.ofList (ds.take point.toNat) ++ "." ++
      String.ofList (ds.drop point.toNat)
  else if -5 < point && point ≤ 0 then
    "0." ++ String.ofList (List.replicate (-point).toNat '0' ++ ds)
  else
    let fraction :=
      if ds.length = 1 then "" else "." ++ String.ofList (ds.drop 1)
    let power := point - 1
    String.ofList (ds.take 1) ++ fraction ++ "e" ++
      (if power < 0 then "-" else "+") ++ Nat.repr power.natAbs

def text (x : Float) : String :=
  let bits := x.toBits
  let sign := if bits.toNat < signBit then "" else "-"
  if bits.toNat % signBit = 0 then
    sign ++ "0.0"
  else
    let (digits, exponent) := shortest bits
    sign ++ layout digits exponent

end Decimal
end MethodLint
