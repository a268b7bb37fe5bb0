import FeatureToggles.Decimal.Digits

/-!
# Moments

A date and a time of day, with or without its distance from universal time, and the text of it.
-/

namespace FeatureToggles

open CodePoint (char)

/-- A date and a time of day. The offset is the distance from universal time in seconds. -/
structure Moment where
  year : Nat
  month : Nat
  day : Nat
  hour : Nat
  minute : Nat
  second : Nat
  microsecond : Nat
  offset : Option Int
  deriving DecidableEq

namespace Moment

/-- The decimal digits of a number, with zeros in front up to the given width. -/
def padded (width n : Nat) : List CodePoint :=
  let digits := Decimal.natText n
  List.replicate (width - digits.length) (char '0') ++ digits

/-- The fraction of a second; none is written for a whole second. -/
def fractionText (microsecond : Nat) : List CodePoint :=
  if microsecond = 0 then [] else '.' :: padded 6 microsecond

/-- A distance from universal time; its seconds are written unless they are zero. -/
def offsetText (offset : Int) : List CodePoint :=
  let distance := offset.natAbs
  let seconds := distance % 60
  (if offset < 0 then char '-' else char '+') :: padded 2 (distance / 3600)
    ++ char ':' :: padded 2 (distance / 60 % 60)
    ++ if seconds = 0 then [] else char ':' :: padded 2 seconds

/-- The characters of a moment: the date, the letter `T`, the time, and the distance if it is known. -/
def chars (m : Moment) : List CodePoint :=
  padded 4 m.year ++ char '-' :: padded 2 m.month ++ char '-' :: padded 2 m.day
    ++ char 'T' :: padded 2 m.hour ++ char ':' :: padded 2 m.minute ++ char ':' :: padded 2 m.second
    ++ fractionText m.microsecond ++ (m.offset.map offsetText).getD []

/-- The text of a moment. -/
def text (m : Moment) : Text :=
  Text.ofList m.chars

end Moment

end FeatureToggles
