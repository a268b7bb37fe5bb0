import FeatureToggles.Fault
import FeatureToggles.Metrics.Basic
import FeatureToggles.Store

/-!
# Resolution

The truth values of all toggles of an account for one request's metadata. It succeeds as a whole or fails
as a whole. Of toggles with one key the last one decides.
-/

namespace FeatureToggles

/-- Truth values by toggle key. -/
abbrev Resolution := OrderedMap Text Bool

namespace Resolution

/-- The values of toggles. Whether a toggle is active plays no part. -/
def ofToggles (metadata : Metadata) (toggles : List Toggle) : Resolution :=
  toggles.foldl (fun values toggle => values.insert toggle.key (Rule.evalAll metadata toggle.rules)) .empty

/-- The fault of a resolution whose listing failed: that of a `Failure.fault`, and a `Fault.unresolved`
for any other failure. -/
def faultOf (account : Uuid) : Failure → Fault
  | .fault cause => cause
  | _ => .unresolved "could not list toggles" [("account_id", .string account.text)]

/-- The values for a listing of an account's toggles. -/
def ofListing (account : Uuid) (metadata : Metadata) (listing : Except Failure (List Toggle)) :
    Except Fault Resolution :=
  match listing with
  | .ok toggles => .ok (ofToggles metadata toggles)
  | .error failure => .error (faultOf account failure)

/-- The metrics after a resolution with the given listing and duration. -/
def record (listing : Except Failure (List Toggle)) (seconds : Binary64) (metrics : Metrics) : Metrics :=
  match listing with
  | .ok toggles => (metrics.recordResolution "ok" toggles.length).recordResolutionTime seconds
  | .error _ => metrics.recordResolution "error" 0

/-- The body of the answer with the values. -/
def toJson (resolution : Resolution) : Json :=
  .object (resolution.entries.map fun (key, value) => (key, .bool value))

end Resolution

end FeatureToggles
