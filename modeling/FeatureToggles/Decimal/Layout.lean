import FeatureToggles.Decimal.Shortest

/-!
# Number texts

How a binary64 number is written: the shortest digits that read back, positional while the decimal
exponent lies in a fixed range and with an exponent of at least two digits outside it, and never without
a point or an exponent, so that the text of a float differs from that of an integer.
-/

namespace FeatureToggles.Decimal

open CodePoint (char)

/-- The words that differ between the written forms of numbers. -/
structure Layout where
  nan : List CodePoint
  infinity : List CodePoint

/-- Numbers within a message or an answer's text. -/
def Layout.plain : Layout := ⟨("nan" : Text).toList, ("inf" : Text).toList⟩

/-- Numbers within JSON. -/
def Layout.json : Layout := ⟨("NaN" : Text).toList, ("Infinity" : Text).toList⟩

/-- The least decimal exponent written positionally. -/
def leastPositional : Int := -4

/-- The least decimal exponent above those written positionally. -/
def firstScientific : Int := 16

/-- Drops the zeros at the end, but keeps a first digit. -/
def dropTrailingZeros (ds : List Nat) : List Nat :=
  match ds with
  | [] => []
  | d :: rest => d :: (rest.reverse.dropWhile (· == 0)).reverse

/-- A decimal exponent with its sign and at least two digits. -/
def exponentText (e : Int) : List CodePoint :=
  let ds := natText e.natAbs
  (if e < 0 then '-' else '+') :: (if ds.length < 2 then '0' :: ds else ds)

/-- Digits with the first one worth `10 ^ e`, written positionally. -/
def positional (ds : List CodePoint) (e : Int) : List CodePoint :=
  if e < 0 then char '0' :: char '.' :: (List.replicate (-e - 1).toNat (char '0') ++ ds)
  else
    let wholes := e.toNat + 1
    let whole := ds.take wholes ++ List.replicate (wholes - ds.length) (char '0')
    let part := ds.drop wholes
    whole ++ char '.' :: (if part.isEmpty then [char '0'] else part)

/-- Digits with the first one worth `10 ^ e`, written with an exponent. -/
def scientific (ds : List CodePoint) (e : Int) : List CodePoint :=
  match ds with
  | [] => []
  | [d] => d :: char 'e' :: exponentText e
  | d :: rest => d :: char '.' :: rest ++ char 'e' :: exponentText e

/-- A finite magnitude. -/
def magnitudeText (rank : Rank) : List CodePoint :=
  let decimal := shortest rank
  let ds := digits decimal.mantissa
  let e := decimal.exponent + ds.length - 1
  let shown := (dropTrailingZeros ds).map digitChar
  if leastPositional ≤ e ∧ e < firstScientific then positional shown e else scientific shown e

/-- A binary64 number in the given layout. -/
def floatText (layout : Layout) : Binary64 → List CodePoint
  | .nan => layout.nan
  | .number negative rank =>
    let magnitude := if rank.val = infinityRank then layout.infinity else magnitudeText rank
    if negative then '-' :: magnitude else magnitude

end FeatureToggles.Decimal
