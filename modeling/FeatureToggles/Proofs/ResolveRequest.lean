import FeatureToggles.Proofs.JsonText
import FeatureToggles.Proofs.Utf8Text
import FeatureToggles.Service.Respond

/-!
# Requests to resolve toggles

The answer to a request for the values of an account's toggles depends on its account, on its body and on
`Service.listing`, in this order. `metadataOf` refuses a body that is no JSON object with a
`Fault.invalid`, but for one that is nested deeper than the reader goes: there it ends with
`Outcome.crash`, which `respond` answers with `internalError`. So do values with a key that has a
surrogate, as `Outcome.written` cannot write them.
-/

namespace FeatureToggles

open CodePoint (char)
open JsonLibrary (maxNesting)

/-! ### Routes -/

namespace Route

end Route

namespace Resolution

end Resolution

namespace Service

/-! ### Answers -/

/-- The answer to a request that is not valid. -/
def refusal (request : Request) (message : Text) (details : Details) : Response where
  status := 400
  body := some (.object [("code", .string "VALIDATION_ERROR"), ("message", .string message),
    ("details", .object details)])
  correlation := some request.correlation

end Service

/-! ### Bodies -/

section

variable [JsonLibrary]

namespace Json

end Json

namespace Service

variable {service : Service} {surroundings : Surroundings} {request : Request} {account : String}

/-- Whether the body gives the metadata: an empty one gives `Metadata.empty`, any other one has to hold an
object. -/
inductive Tells : List UInt8 → Metadata → Prop
  | nothing : Tells [] .empty
  | object {body : List UInt8} {fields : List (Text × Json)} (hne : body ≠ [])
    (h : Body.read body = .ok (.object fields)) : Tells body (.ofFields fields)

variable {id : Uuid}

variable {metadata : Metadata}

end Service

end

attribute [local instance] JsonLibrary.terse

namespace Service

/-- The account with the number 161. -/
def sampleAccount : String := "00000000-0000-0000-0000-0000000000a1"

/-- A request for the values of that account. -/
def sampleRequest (body : String) : Request where
  method := "POST"
  path := "/resolve/" ++ sampleAccount
  headers := []
  body := body.toUTF8.data.toList

/-- A service without toggles. -/
def sampleService : Service := ⟨.forService "toggles", .memory .empty, true, "unknown"⟩

/-- Surroundings in which nothing fails. -/
def sampleSurroundings : Surroundings := ⟨none, none, ⟨none, [], []⟩, .zero, .zero⟩

end Service

end FeatureToggles
