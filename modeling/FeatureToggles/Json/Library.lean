import FeatureToggles.Text.Encoding

/-!
# The JSON library

How deeply containers may be nested, and the messages about text or bytes that hold no JSON value, depend
on the library that reads them. They are fields of `JsonLibrary`.
-/

namespace FeatureToggles

/-- A library that reads JSON. -/
class JsonLibrary where
  /-- The most containers that may stand within each other. -/
  maxNesting : Nat
  /-- There is room for the stored form of every rule list. -/
  le_maxNesting : 100 ≤ maxNesting
  /-- The message about code points that hold no value. -/
  malformed : List CodePoint → Text
  /-- The message about bytes that are not in the encoding, with surrogates tolerated or not. -/
  undecodable : Text.Encoding → Bool → List UInt8 → Text

namespace JsonLibrary

/-- A library that reads up to 900 containers within each other and always gives the message `...`. -/
@[reducible] def terse : JsonLibrary where
  maxNesting := 900
  le_maxNesting := by decide
  malformed _ := "..."
  undecodable _ _ _ := "..."

theorem room [library : JsonLibrary] {k : Nat} (h : k ≤ 100) : k ≤ maxNesting :=
  Nat.le_trans h library.le_maxNesting

end JsonLibrary

end FeatureToggles
