import FeatureToggles.Decimal.Binary64
import FeatureToggles.Decimal.Digits

/-!
# Shortest decimals

The shortest decimal that reads back as a given magnitude. For one digit, two digits and so on, the two
decimals of that length around the magnitude are tried; the first length with one that reads back wins,
of two the nearer, of two equally near the one with an even last digit.
-/

namespace FeatureToggles.Decimal

open Binary64 (units roundDecimal)

/-- A decimal `mantissa * 10 ^ exponent`. -/
structure Scaled where
  mantissa : Nat
  exponent : Int
  deriving DecidableEq

namespace Scaled

/-- Whether the decimal reads back as the magnitude of `rank`. -/
def readsAs (x : Scaled) (rank : Rank) : Bool :=
  roundDecimal x.mantissa x.exponent == rank

end Scaled

/-- Where the first digit of `num / den` stands: the `e` with `10 ^ (e - 1) ≤ num / den < 10 ^ e`. -/
def pointPlace (num den : Nat) : Int :=
  if den ≤ num then (digits (num / den)).length
  else 1 - ((digits ((den - 1) / num)).length : Int)

/-- The best decimal with `count` digits that reads back as the magnitude `num / den` of `rank`, where
`place` is the place of its first digit. -/
def ofLength? (rank : Rank) (num den : Nat) (place : Int) (count : Nat) : Option Scaled :=
  let exponent := place - count
  -- the ratio in units of the last of `count` digits
  let scaledNum := num * Nat.pow 10 (-exponent).toNat
  let scaledDen := den * Nat.pow 10 exponent.toNat
  let below : Scaled := ⟨scaledNum / scaledDen, exponent⟩
  let above : Scaled := ⟨scaledNum / scaledDen + 1, exponent⟩
  match below.readsAs rank, above.readsAs rank with
  | true, false => some below
  | false, true => some above
  | false, false => none
  | true, true =>
    some (if Binary64.roundDiv scaledNum scaledDen = below.mantissa then below else above)

/-- All digits of the magnitude of `rank`. Its units are `2 ^ -1074`, that is `5 ^ 1074 / 10 ^ 1074`. -/
def exactly (rank : Rank) : Scaled :=
  ⟨units rank * Nat.pow 5 1074, -1074⟩

/-- The shortest decimal that reads back as the magnitude of `rank`. Seventeen digits always suffice. -/
def shortest (rank : Rank) : Scaled :=
  if rank.val = 0 then ⟨0, 0⟩
  else
    let num := units rank
    let den := Nat.pow 2 1074
    ((List.range' 1 17).findSome? (ofLength? rank num den (pointPlace num den))).getD (exactly rank)

end FeatureToggles.Decimal
