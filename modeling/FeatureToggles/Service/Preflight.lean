import FeatureToggles.Service.Message

/-!
# Preflight requests

Before a page sends a request to another origin than its own, its browser asks there whether it may. The
answer does not depend on the path that the browser asks about.
-/

namespace FeatureToggles.Preflight

/-- The name of the header that holds the origin of the page that asks. -/
def originHeader : String := "origin"

/-- The name of the header that holds the method that the page would use. -/
def methodHeader : String := "access-control-request-method"

/-- The name of the header by which a page asks for a request into a private network. -/
def privateNetworkHeader : String := "access-control-request-private-network"

/-- The methods that a page may use. -/
def methods : List String :=
  ["DELETE", "GET", "HEAD", "OPTIONS", "PATCH", "POST", "PUT", "QUERY"]

/-- The method that a request asks for, if it is a preflight. -/
def methodOf? (request : Request) : Option String :=
  if request.method = "OPTIONS" && (request.header? originHeader).isSome then
    request.header? methodHeader
  else none

/-- Whether a page may send a request with the given method. A local service is open to the pages of all
origins and any other to none of them; neither opens a private network. -/
def isGranted (isLocal : Bool) (request : Request) (method : String) : Bool :=
  isLocal && methods.contains method && (request.header? privateNetworkHeader).isNone

/-- The outcome of a request that is a preflight. -/
def outcome? (isLocal : Bool) (request : Request) : Option Outcome :=
  (methodOf? request).map fun method =>
    .answer (if isGranted isLocal request method then 200 else 400) none

end FeatureToggles.Preflight
