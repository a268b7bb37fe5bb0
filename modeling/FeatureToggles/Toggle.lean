import FeatureToggles.Moment
import FeatureToggles.Rule.Wire
import FeatureToggles.Uuid

/-!
# Toggles

A named switch of an account, with the rules that decide it.
-/

namespace FeatureToggles

/-- A named switch of an account. -/
structure Toggle where
  id : Uuid
  accountId : Uuid
  key : Text
  description : Text
  active : Bool
  rules : List Rule
  createdAt : Moment
  updatedAt : Moment
  deriving DecidableEq

namespace Toggle

/-- The toggle as an answer shows it. -/
def toJson (toggle : Toggle) : Json :=
  .object [("id", .string toggle.id.text), ("accountId", .string toggle.accountId.text),
    ("key", .string toggle.key), ("description", .string toggle.description),
    ("active", .bool toggle.active), ("rules", .array (toggle.rules.map Rule.encode)),
    ("createdAt", .string toggle.createdAt.text), ("updatedAt", .string toggle.updatedAt.text)]

end Toggle

end FeatureToggles
