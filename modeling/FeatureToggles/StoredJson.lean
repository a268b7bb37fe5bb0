import FeatureToggles.DecodeError
import FeatureToggles.Json.Reader
import FeatureToggles.Text.Encoding

/-!
# Stored JSON

Stored data comes as text or as bytes that hold a JSON value.
-/

namespace FeatureToggles.StoredJson

open Decoded (fail)

variable [JsonLibrary]

/-- The value that characters hold. -/
def ofChars (cs : List CodePoint) : Decoded Json :=
  match Json.readChars cs with
  | .ok value => .ok value
  | .error .tooDeep => fail .jsonTooDeep
  | .error _ => fail (.malformedJson (JsonLibrary.malformed cs))

/-- The value that a text holds. -/
def ofText (text : Text) : Decoded Json :=
  ofChars text.toList

/-- The value that bytes hold, in the encoding that they show. -/
def ofBytes (bytes : List UInt8) : Decoded Json :=
  match Text.decodeDetected bytes with
  | some cs => ofChars cs
  | none =>
    let (encoding, content) := Text.Encoding.detect bytes
    fail (.undecodableBytes (JsonLibrary.undecodable encoding true content))

/-- The value that bytes hold if they are UTF-8. -/
def ofUtf8 (bytes : List UInt8) : Decoded Json :=
  match Text.decodeUtf8 false bytes with
  | some cs => ofChars cs
  | none => fail (.undecodableBytes (JsonLibrary.undecodable .utf8 false bytes))

end FeatureToggles.StoredJson
