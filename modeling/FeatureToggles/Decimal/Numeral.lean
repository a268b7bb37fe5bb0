import FeatureToggles.Decimal.Binary64
import FeatureToggles.Decimal.Digits

/-!
# Numerals

The parts of a written number, by the values of its digits, and the number they stand for.
-/

namespace FeatureToggles.Decimal

/-- The most digits an integer may be written with, leading zeros included. -/
def maxIntegerDigits : Nat := 4300

/-- A number as written: its sign, the digits before and after the point, and its exponent. -/
structure Numeral where
  negative : Bool
  whole : List Nat
  fraction : List Nat
  exponent : Option Int

namespace Numeral

/-- The binary64 number nearest to the numeral. -/
def toBinary64 (x : Numeral) : Binary64 :=
  Binary64.ofDecimal x.negative (ofDigits (x.whole ++ x.fraction))
    (x.exponent.getD 0 - x.fraction.length)

/-- The integer of the digits before the point, unless there are too many of them. -/
def toInt? (x : Numeral) : Option Int :=
  if x.whole.length ≤ maxIntegerDigits then
    some (if x.negative then -(ofDigits x.whole : Int) else (ofDigits x.whole : Int))
  else none

end Numeral

/-- The value of an ASCII digit. -/
def digitValue (c : CodePoint) : Nat :=
  c.toNat - '0'.toNat

/-- A sign in front of digits; a missing one is not negative. -/
def signAt : List CodePoint → Bool × List CodePoint
  | '-' :: rest => (true, rest)
  | '+' :: rest => (false, rest)
  | cs => (false, cs)

/-- The exponent, if one with at least one digit stands here. -/
def exponentAt : List CodePoint → Option Int × List CodePoint
  | [] => (none, [])
  | c :: rest =>
    let (negative, after) := signAt rest
    let ds := after.takeWhile CodePoint.isDigit
    if (c = 'e' ∨ c = 'E') ∧ !ds.isEmpty then
      let n : Int := ofDigits (ds.map digitValue)
      (some (if negative then -n else n), after.dropWhile CodePoint.isDigit)
    else (none, c :: rest)

end FeatureToggles.Decimal
