import FeatureToggles.Decimal.Binary64
import FeatureToggles.Text.Basic

/-!
# Literals

The values that rules compute with: texts, integers, binary64 numbers and truth values. Values compare
only within their kind: across kinds nothing is equal and nothing is greater.
-/

namespace FeatureToggles

/-- A value of one of four kinds. -/
inductive Literal where
  | string (value : Text)
  | int (value : Int)
  | float (value : Binary64)
  | bool (value : Bool)
  deriving DecidableEq

namespace Literal

/-- Whether two values are of one kind and equal. -/
def eq : Literal → Literal → Bool
  | string s, string t => s == t
  | int m, int n => m == n
  | float x, float y => x.eq y
  | bool a, bool b => a == b
  | _, _ => false

/-- Whether two values are of one kind and the first is greater. Texts are ordered by code points; truth
values are not ordered. -/
def gt : Literal → Literal → Bool
  | string s, string t => decide (t < s)
  | int m, int n => decide (n < m)
  | float x, float y => x.gt y
  | _, _ => false

/-- Whether a value counts as true: a text unless it is empty, a number if it is positive. -/
def isTrue : Literal → Bool
  | string s => !s.isEmpty
  | int n => decide (0 < n)
  | float x => x.isPositive
  | bool b => b

end Literal

end FeatureToggles
