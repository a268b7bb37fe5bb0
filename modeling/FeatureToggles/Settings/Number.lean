import FeatureToggles.Decimal.Numeral
import FeatureToggles.Text.DigitRun
import FeatureToggles.Text.Trim
import FeatureToggles.Unicode.Blank

/-!
# Numbers among settings

Numbers as people set them: white space around them does not matter, a sign may precede them, single
underscores may stand between digits, and zeros may fill up the front of an integer.
-/

namespace FeatureToggles.Settings

open CodePoint (char)

open Decimal (Numeral digitValue exponentAt signAt)

/-- What an ASCII digit is worth. -/
def digitValue? (c : CodePoint) : Option Nat :=
  if c.isDigit then some (digitValue c) else none

/-- The characters of a text without the white space around them. -/
def trimmed (text : Text) : List CodePoint :=
  Text.trim Unicode.isWhiteSpace text.toList

/-- What stands before the point of a number, if it has one. At least one digit follows a point, and only
zeros do. -/
def wholePart? (cs : List CodePoint) : Option (List CodePoint) :=
  match cs.dropWhile (· ≠ char '.') with
  | [] => some cs
  | _ :: fraction =>
    if !fraction.isEmpty && fraction.all (· = char '0') then some (cs.takeWhile (· ≠ char '.')) else none

/-- The integer of a sign and a run of digits. -/
def signedInteger? (negative : Bool) (cs : List CodePoint) : Option Int :=
  (Text.digitRun? digitValue? cs).bind fun ds => (⟨negative, ds, [], none⟩ : Numeral).toInt?

/-- Whether a character may fill up the front of a number, once it starts with a zero. -/
def isFilling (c : CodePoint) : Bool :=
  c = char '0' || c = char '_'

/-- The integer of the digits behind a minus sign that itself stands behind a filling. They may start with an
underscore, but not with another filling: a zero in front is their only digit. -/
def integerAfterFilling? (cs : List CodePoint) : Option Int :=
  let digits := match cs with
    | '_' :: rest => rest
    | cs => cs
  if digits.head? = some (char '0') && digits.length ≠ 1 then none else signedInteger? true digits

/-- The integer that characters without a point stand for. A number may be filled up in front with zeros and
underscores in any order after the first zero, and a minus sign stands before or behind the filling, not
both. A filling that ends in a zero is the number zero if nothing follows it. -/
def integerWithoutPoint? (cs : List CodePoint) : Option Int :=
  let (negative, unsigned) := signAt cs
  if unsigned.head? = some (char '0') then
    match unsigned.dropWhile isFilling with
    | [] => if unsigned.getLast? = some (char '0') then some 0 else none
    | '-' :: rest => if negative then none else integerAfterFilling? rest
    | rest => signedInteger? negative rest
  else signedInteger? negative unsigned

/-- The integer that a text sets. -/
def integer? (text : Text) : Option Int :=
  (wholePart? (trimmed text)).bind integerWithoutPoint?

/-- The number that digits with an optional point and exponent stand for. A digit stands before or after
the point. -/
def decimal? (negative : Bool) (cs : List CodePoint) : Option Binary64 :=
  let whole := cs.takeWhile CodePoint.isDigit
  let (fraction, rest) := match cs.dropWhile CodePoint.isDigit with
    | '.' :: rest => (rest.takeWhile CodePoint.isDigit, rest.dropWhile CodePoint.isDigit)
    | rest => ([], rest)
  let (exponent, rest) := exponentAt rest
  if (whole.isEmpty && fraction.isEmpty) || !rest.isEmpty then none
  else
    some (⟨negative, whole.map digitValue, fraction.map digitValue, exponent⟩ : Numeral).toBinary64

/-- The number that characters without underscores stand for. Infinity and not-a-number are words of
either case. -/
def plainFloat? (cs : List CodePoint) : Option Binary64 :=
  let (negative, unsigned) := signAt cs
  let word := unsigned.map CodePoint.toLower
  if word = ("inf" : Text).toList || word = ("infinity" : Text).toList then some (.infinity negative)
  else if word = ("nan" : Text).toList then some .nan
  else decimal? negative unsigned

/-- Whether every underscore stands between other characters. -/
def underscoresInside (cs : List CodePoint) : Bool :=
  cs.head? ≠ some (char '_') && cs.getLast? ≠ some (char '_')
    && (cs.zip (cs.drop 1)).all (· ≠ (char '_', char '_'))

/-- The number that a text sets. A text with underscores has no white space around it. -/
def float? (text : Text) : Option Binary64 :=
  let cs := text.toList
  (plainFloat? (trimmed text)).or
    (if underscoresInside cs then plainFloat? (cs.filter (· ≠ char '_')) else none)

end FeatureToggles.Settings
