import FeatureToggles.Text.Basic

/-!
# Runs of digits

Digits of some base between which single underscores may stand.
-/

namespace FeatureToggles.Text

/-- The values of the digits of a run. An underscore has a digit on either side. -/
def digitRun? (value? : CodePoint → Option Nat) : List CodePoint → Option (List Nat)
  | [] => none
  | [c] => (value? c).map ([·])
  | c :: '_' :: rest => do return (← value? c) :: (← digitRun? value? rest)
  | c :: d :: rest => do return (← value? c) :: (← digitRun? value? (d :: rest))

end FeatureToggles.Text
