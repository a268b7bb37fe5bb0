import FeatureToggles.Text.DigitRun
import FeatureToggles.Text.Hex
import FeatureToggles.Text.Trim
import FeatureToggles.Unicode.Blank
import FeatureToggles.Unicode.Decimal

/-!
# Identifiers of accounts and toggles

An identifier is a number of 128 bits. Its text has 32 lower-case hexadecimal digits in five groups that
hyphens divide. Many other spellings are read: without hyphens or with more of them, in braces, after
`urn:uuid:`, in upper case.
-/

namespace FeatureToggles

open CodePoint (char)

/-- How many numbers identifiers can be. -/
def uuidBound : Nat := Nat.pow 2 128

/-- A number of 128 bits. -/
structure Uuid where
  number : Nat
  number_lt : number < uuidBound
  deriving DecidableEq

namespace Uuid

/-! ### Writing -/

/-- How many digits stand in each group. -/
def groupSizes : List Nat := [8, 4, 4, 4, 12]

/-- Cuts characters into groups of the given sizes. -/
def cut : List Nat → List CodePoint → List (List CodePoint)
  | [], _ => []
  | size :: sizes, cs => cs.take size :: cut sizes (cs.drop size)

/-- The characters of an identifier. -/
def chars (id : Uuid) : List CodePoint :=
  List.intercalate [char '-'] (cut groupSizes (Text.hexFixed 32 id.number))

/-- The text of an identifier. -/
def text (id : Uuid) : Text :=
  Text.ofList id.chars

/-! ### Reading -/

/-- Whether a character is a brace of either kind. -/
def isBrace (c : CodePoint) : Bool :=
  c = char '\x7b' || c = char '\x7d'

/-- What a digit is worth: a hexadecimal digit, or a decimal digit of any script. -/
def digitValue? (c : CodePoint) : Option Nat :=
  (Text.hexValue? c).or (Unicode.decimalValue? c)

/-- Takes one plus sign off. -/
def unsigned : List CodePoint → List CodePoint
  | '+' :: rest => rest
  | cs => cs

/-- Takes the mark `0x` off, and one underscore after it. -/
def unmarked : List CodePoint → List CodePoint
  | zero :: char 'x' :: rest => if digitValue? zero = some 0 then joined rest else zero :: char 'x' :: rest
  | zero :: char 'X' :: rest => if digitValue? zero = some 0 then joined rest else zero :: char 'X' :: rest
  | cs => cs
where
  joined : List CodePoint → List CodePoint
    | '_' :: rest => rest
    | rest => rest

/-- The number that 32 characters stand for. White space may surround it, and a sign, a mark and
underscores count as characters. -/
def number? (cs : List CodePoint) : Option Nat :=
  if cs.length = 32 then
    (Text.digitRun? digitValue? (unmarked (unsigned (Text.trim Unicode.isWhiteSpace cs)))).map
      (·.foldl (fun n d => 16 * n + d) 0)
  else none

/-- The characters of a spelling that stand for the number. -/
def bare (cs : List CodePoint) : List CodePoint :=
  let unlabelled := Text.without ("uuid:" : Text).toList (Text.without ("urn:" : Text).toList cs)
  (Text.trim isBrace unlabelled).filter (· ≠ char '-')

/-- The identifier that a number is. -/
def ofNat? (n : Nat) : Option Uuid :=
  if h : n < uuidBound then some ⟨n, h⟩ else none

/-- The identifier that characters spell. -/
def ofChars? (cs : List CodePoint) : Option Uuid :=
  (number? (bare cs)).bind ofNat?

/-- The identifier that a text spells. -/
def ofText? (text : Text) : Option Uuid :=
  ofChars? text.toList

end Uuid

end FeatureToggles
