import MethodLint.Config.Token
import MethodLint.Decimal.Scaled

/-!
# Numerals

A numeral is read in two steps.  First its parts are taken from the text: a
sign, the whole part, a fraction and an exponent.  Then the parts are given a
value: an integer where that is exact and fits, and a double otherwise.

**Algorithm.**  The significand gathers digits as long as it stays below
`2 ^ 64`.  Whole digits that no longer fit raise the exponent instead, and
fraction digits that no longer fit are dropped.  The exponent is gathered as
long as it stays below `2 ^ 31`.
-/

namespace MethodLint
namespace Config

/-- The exponent of a numeral: its sign and its digits. -/
structure Exponent where
  negative : Bool
  digits : List Char
deriving DecidableEq

structure Numeral where
  negative : Bool
  whole : List Char
  fraction : Option (List Char)
  exponent : Option Exponent
deriving DecidableEq

namespace Numeral

def digits (s : List Char) : List Char :=
  s.takeWhile Char.isDigit

def afterDigits (s : List Char) : List Char :=
  s.dropWhile Char.isDigit

/-- The whole part: a zero alone, or digits that do not begin with zero. -/
def readWhole : Reader (List Char)
  | [] => .error (.here .endInValue [])
  | c :: rest =>
      if c = '0' then
        if (digits rest).isEmpty then
          .ok ([c], rest)
        else
          .error (.ahead .numberMalformed rest)
      else if c.isDigit then
        .ok (c :: digits rest, afterDigits rest)
      else
        .error (.ahead .numberMalformed (c :: rest))

/-- The fraction, if a point comes next; it has at least one digit. -/
def readFraction : Reader (Option (List Char))
  | '.' :: rest =>
      if (digits rest).isEmpty then
        if rest.isEmpty then
          .error (.here .endInValue [])
        else
          .error (.ahead .numberMalformed rest)
      else
        .ok (some (digits rest), afterDigits rest)
  | s => .ok (none, s)

/-- The sign of an exponent, and the rest; without a sign it is positive. -/
def exponentSign : List Char → Bool × List Char
  | '+' :: rest => (false, rest)
  | '-' :: rest => (true, rest)
  | s => (false, s)

/-- The exponent, if its letter comes next; it has at least one digit. -/
def readExponent : Reader (Option Exponent)
  | [] => .ok (none, [])
  | c :: tail =>
      if c = 'e' || c = 'E' then
        match exponentSign tail with
        | (_, []) => .error (.here .endInValue [])
        | (negative, d :: rest) =>
            if d.isDigit then
              .ok (some ⟨negative, d :: digits rest⟩, afterDigits rest)
            else
              .error (.ahead .numberMalformed (d :: rest))
      else
        .ok (none, c :: tail)

def readSign : List Char → Bool × List Char
  | '-' :: rest => (true, rest)
  | s => (false, s)

/-- The parts of the numeral at the front of a text. -/
def read (s : List Char) : Except Fault (Numeral × List Char) :=
  let (negative, afterSign) := readSign s
  match readWhole afterSign with
  | .error fault => .error fault
  | .ok (whole, afterWhole) =>
      match readFraction afterWhole with
      | .error fault => .error fault
      | .ok (fraction, afterFraction) =>
          match readExponent afterFraction with
          | .error fault => .error fault
          | .ok (exponent, rest) =>
              .ok (⟨negative, whole, fraction, exponent⟩, rest)

def digitValue (c : Char) : Nat :=
  c.toNat - '0'.toNat

/--
Append decimal digits to a number as long as it stays below the bound; the
digits that remain are given back.
-/
def gather (bound : Nat) : Nat → List Char → Nat × List Char
  | n, [] => (n, [])
  | n, c :: rest =>
      let grown := 10 * n + digitValue c
      if grown < bound then
        gather bound grown rest
      else
        (n, c :: rest)

def significandBound : Nat :=
  18446744073709551616

def exponentBound : Nat :=
  2147483648

def leastInteger : Nat :=
  9223372036854775808

/-- The double with a sign put to it. -/
def signed (negative : Bool) (x : Float) : Value :=
  .real (if negative then -x else x)

/-- The value of a whole number that has been gathered in full. -/
def integer (negative : Bool) (n : Nat) : Value :=
  if !negative then
    .integer n
  else if n = 0 || leastInteger < n then
    signed true (Float.ofNat n)
  else
    .integer (-n)

/--
The value of `significand * 10 ^ exponent`.  A value that exceeds every
double is a failure, which tells how many characters were unread by then.
-/
def scale (negative : Bool) (significand : Nat) (exponent : Int) :
    Except Nat Value :=
  match Decimal.scaled? significand exponent with
  | some x => .ok (signed negative x)
  | none => .error 0

/-- The value after an exponent, given the exponent of the digits before it. -/
def raise
    (negative : Bool)
    (significand : Nat)
    (shift : Int)
    (exponent : Exponent) :
    Except Nat Value :=
  match gather exponentBound 0 exponent.digits with
  | (n, []) =>
      scale negative significand
        (if exponent.negative then shift - n else shift + n)
  | (_, _ :: unread) =>
      if significand ≠ 0 && !exponent.negative then
        .error unread.length
      else
        .ok (signed negative 0)

/--
The value of a numeral.  A failure means that it exceeds every double, and
tells how many of its characters were unread when this was known.
-/
def value (numeral : Numeral) : Except Nat Value :=
  let (significand, spilled) := gather significandBound 0 numeral.whole
  match numeral.fraction, numeral.exponent with
  | none, none =>
      if spilled.isEmpty then
        .ok (integer numeral.negative significand)
      else
        scale numeral.negative significand spilled.length
  | none, some exponent =>
      raise numeral.negative significand spilled.length exponent
  | some fraction, exponent? =>
      let (significand, dropped) := gather significandBound significand fraction
      let shift : Int :=
        spilled.length - (fraction.length - dropped.length : Nat)
      match exponent? with
      | none => scale numeral.negative significand shift
      | some exponent => raise numeral.negative significand shift exponent

end Numeral

/-- The value of the numeral at the front of a text. -/
def number (s : List Char) : Except Fault (Value × List Char) :=
  match Numeral.read s with
  | .error fault => .error fault
  | .ok (numeral, rest) =>
      match numeral.value with
      | .ok value => .ok (value, rest)
      | .error unread =>
          .error ⟨.numberTooLarge, unread + Text.byteLength rest⟩

end Config
end MethodLint
