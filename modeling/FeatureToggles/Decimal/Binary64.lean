/-!
# Binary64 numbers

The numbers of the 64-bit binary format, with one not-a-number. The magnitudes of the format are ranked:
zero has rank 0, the least positive number `2 ^ -1074` has rank 1, and so on up to infinity. Ranks grow
with magnitudes, so the order of two numbers is the order of two integers, and rounding is a division.
-/

namespace FeatureToggles

/-- The rank of the infinite magnitude: 2047 runs of `2 ^ 52` magnitudes lie below it. -/
def infinityRank : Nat := 2047 * Nat.pow 2 52

/-- The place of a magnitude among all magnitudes of the format. -/
abbrev Rank := Fin (infinityRank + 1)

/-- A number of the 64-bit binary format. Zero and infinity carry a sign as all others do. -/
inductive Binary64 where
  | nan
  | number (negative : Bool) (rank : Rank)
  deriving DecidableEq

namespace Binary64

/-! ### Order -/

/-- A number's place on the line, with both zeros at one place; a not-a-number has none. -/
def place? : Binary64 → Option Int
  | nan => none
  | number negative rank => some (if negative then -(rank.val : Int) else (rank.val : Int))

/-- Equality of numbers: the two zeros are equal, and a not-a-number equals nothing. -/
def eq (x y : Binary64) : Bool :=
  match x.place?, y.place? with
  | some a, some b => a == b
  | _, _ => false

/-- Whether `x` lies above `y`; a not-a-number lies nowhere. -/
def gt (x y : Binary64) : Bool :=
  match x.place?, y.place? with
  | some a, some b => decide (b < a)
  | _, _ => false

/-- Whether the number lies above zero. -/
def isPositive (x : Binary64) : Bool :=
  match x.place? with
  | some a => decide (0 < a)
  | none => false

/-- Whether the number is neither infinite nor a not-a-number. -/
def isFinite : Binary64 → Bool
  | nan => false
  | number _ rank => rank.val < infinityRank

/-! ### Rounding -/

/-- The whole number nearest to `num / den`; of two equally near the even one. -/
def roundDiv (num den : Nat) : Nat :=
  let q := num / den
  let r := num % den
  if 2 * r < den then q else if den < 2 * r then q + 1 else q + q % 2

/-- The rank of the magnitude nearest to `num / den`, of two equally near the one whose rank is even.

`num * 2 ^ 1074 / den` counts the ratio in units of the least positive magnitude. Below `2 ^ 53` units
every count is a magnitude; above, each doubling of the count doubles the step between magnitudes. -/
def roundRatio (num den : Nat) : Rank :=
  let units := num * Nat.pow 2 1074
  let doublings := (units / den).log2 - 52
  let rank := doublings * Nat.pow 2 52 + roundDiv units (den * Nat.pow 2 doublings)
  ⟨min rank infinityRank, by omega⟩

/-- The magnitude of a finite rank as a whole number of units `2 ^ -1074`: `significand * 2 ^ doublings`. -/
def significand (rank : Nat) : Nat :=
  if rank < Nat.pow 2 53 then rank else Nat.pow 2 52 + rank % Nat.pow 2 52

@[inherit_doc significand] def doublings (rank : Nat) : Nat :=
  rank / Nat.pow 2 52 - 1

/-- The magnitude of a finite rank, in units of `2 ^ -1074`. -/
def units (rank : Nat) : Nat :=
  significand rank * Nat.pow 2 (doublings rank)

/-- The rank of the magnitude nearest to `mantissa * 10 ^ exponent`.

Far beyond either end of the format the exact ratio is not formed. With `b` the base-two logarithm of
the mantissa rounded down, the value is at least `10 ^ (exponent + 3 * b / 10)` and at most
`10 ^ (exponent + b / 3 + 1)`. -/
def roundDecimal (mantissa : Nat) (exponent : Int) : Rank :=
  if mantissa = 0 then 0
  else if 309 ≤ exponent + (mantissa.log2 * 3 / 10 : Nat) then ⟨infinityRank, by omega⟩
  else if exponent + (mantissa.log2 / 3 + 1 : Nat) ≤ -325 then 0
  else if 0 ≤ exponent then roundRatio (mantissa * Nat.pow 10 exponent.toNat) 1
  else roundRatio mantissa (Nat.pow 10 (-exponent).toNat)

/-- The number nearest to `mantissa * 10 ^ exponent`, with the given sign. -/
def ofDecimal (negative : Bool) (mantissa : Nat) (exponent : Int) : Binary64 :=
  number negative (roundDecimal mantissa exponent)

/-- The number nearest to a natural number. -/
def ofNat (n : Nat) : Binary64 :=
  number false (roundRatio n 1)

/-- The number nearest to an integer, unless that is infinite. -/
def ofInt? (n : Int) : Option Binary64 :=
  let x := number (n < 0) (roundRatio n.natAbs 1)
  if x.isFinite then some x else none

/-! ### Special numbers and addition -/

/-- The positive zero. -/
def zero : Binary64 := number false 0

/-- The infinite number of either sign. -/
def infinity (negative : Bool) : Binary64 := number negative ⟨infinityRank, by omega⟩

/-- A finite number in units of `2 ^ -1074`, with its sign. -/
def signedUnits (negative : Bool) (rank : Nat) : Int :=
  if negative then -(units rank : Int) else (units rank : Int)

/-- The number nearest to a sum. A sum of zero is positive unless both terms are negative zeros. -/
def add : Binary64 → Binary64 → Binary64
  | nan, _ => nan
  | _, nan => nan
  | number s a, number t b =>
    if a.val = infinityRank ∨ b.val = infinityRank then
      if a.val < infinityRank then infinity t
      else if b.val < infinityRank then infinity s
      else if s = t then infinity s else nan
    else
      let sum := signedUnits s a + signedUnits t b
      if sum = 0 then number (s && t) 0
      else number (sum < 0) (roundRatio sum.natAbs (Nat.pow 2 1074))

end Binary64

end FeatureToggles
