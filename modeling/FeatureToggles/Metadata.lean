import FeatureToggles.Json.Basic
import FeatureToggles.Literal

/-!
# Metadata

Values by name that come with a request. Of the fields of a JSON object `literalOf?` keeps texts, numbers
and truth values; the others are dropped.
-/

namespace FeatureToggles

/-- Values by name. -/
structure Metadata where
  entries : List (Text × Literal)

namespace Metadata

/-- Metadata without names. -/
def empty : Metadata := ⟨[]⟩

/-- The value of a name. -/
def get? (metadata : Metadata) (name : Text) : Option Literal :=
  (metadata.entries.find? (·.1 = name)).map (·.2)

/-- The number of names with a value. -/
def size (metadata : Metadata) : Nat :=
  metadata.entries.length

/-- The literal that a JSON value stands for. -/
def literalOf? : Json → Option Literal
  | .bool b => some (.bool b)
  | .int n => some (.int n)
  | .float x => some (.float x)
  | .string s => some (.string s)
  | _ => none

/-- The metadata of an object's fields. -/
def ofFields (fields : List (Text × Json)) : Metadata :=
  ⟨fields.filterMap fun (name, value) => (literalOf? value).map (name, ·)⟩

/-- The metadata of a JSON value; one that is no object has no names. -/
def ofJson : Json → Metadata
  | .object fields => ofFields fields
  | _ => empty

end Metadata

end FeatureToggles
