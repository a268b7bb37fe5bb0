import FeatureToggles.Json.Reader
import FeatureToggles.Text.Encoding

/-!
# Bodies of requests

The JSON value that the bytes of a body hold.
-/

namespace FeatureToggles

/-- Why a body holds no JSON value. -/
inductive BodyError where
  | undecodable
  | unreadable (cause : Json.ReadError)
  deriving DecidableEq

namespace Body

variable [JsonLibrary]

/-- The JSON value that bytes hold. -/
def read (bytes : List UInt8) : Except BodyError Json :=
  match Text.decodeDetected bytes with
  | some cs => (Json.readChars cs).mapError .unreadable
  | none => .error .undecodable

end Body

end FeatureToggles
