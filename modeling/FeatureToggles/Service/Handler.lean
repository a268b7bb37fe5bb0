import FeatureToggles.Metrics.Sample
import FeatureToggles.RuleText.Parser
import FeatureToggles.Service.Basic
import FeatureToggles.Service.Body
import FeatureToggles.Service.Preflight
import FeatureToggles.Service.Route

/-!
# Handling requests

`dispatch` answers preflights, `follow` finds the `Route` of any other request, and `handle` calls its
handler. A handler changes nothing but metrics.
-/

namespace FeatureToggles

/-- The `Outcome` of a request, and the metrics after it. -/
structure Handled where
  metrics : Metrics
  outcome : Outcome

namespace Service

variable [JsonLibrary]

/-! ### The service itself -/

/-- The description of the service at its root. -/
def selfDescription (service : Service) : Json :=
  .object [("service", .string service.metrics.service),
    ("message", .string "Togglr - Toggles Service"), ("version", .string "1.0.0"),
    ("capabilities", .array [.string "resolve", .string "rule_parsing", .string "rule_validation"])]

/-- The answer to a health check. A store that is not usable is shown as an `error`, but the check is
counted as `ok`; only a check that fails is counted as an `error`. -/
def checkHealth (service : Service) (surroundings : Surroundings) : Handled :=
  match service.storeHealth surroundings with
  | .ok usable =>
    ⟨service.metrics.recordHealthCheck "ok",
      .ok (.object [("service", .string service.metrics.service), ("status", .string "ok"),
        ("dependencies", .object [("store", .string (if usable then "ok" else "error"))]),
        ("version", .string "1.0.0"), ("commit", .string service.commit)])⟩
  | .error failure =>
    ⟨service.metrics.recordHealthCheck "error",
      .answer 503 (some (.object [("service", .string service.metrics.service),
        ("status", .string "error"), ("error", .string failure.message)]))⟩

/-- The answer with all samples. It is a `crash` if a label has no bytes. -/
def showMetrics (service : Service) : Outcome :=
  if service.metrics.samples.all (·.isWritable) then .answer 200 none else .crash

/-- The answer with the store's statistics. -/
def showStats (service : Service) (surroundings : Surroundings) : Outcome :=
  match service.stats surroundings with
  | .ok stats => .ok (.object [("store", stats)])
  | .error failure => .ofFailure failure

/-! ### Toggles -/

/-- The account that a path names. -/
def accountOf (text : Text) : Except Fault Uuid :=
  match Uuid.ofText? text with
  | some id => .ok id
  | none => .error (.invalid "account ID was badly formed" [("account_id", .string text)])

/-- The answer with an account's toggles. -/
def showToggles (service : Service) (surroundings : Surroundings) (account : Text) : Outcome :=
  match accountOf account with
  | .error fault => .fault fault
  | .ok id =>
    match service.listing surroundings id with
    | .ok toggles => .ok (.array (toggles.map (·.toJson)))
    | .error failure => .ofFailure failure

/-- The metadata of a request's body. An empty body gives `Metadata.empty`, and a body that is no object
is refused with `Fault.invalid`. A body that fails with `ReadError.tooDeep` is not refused but ends with
`Outcome.crash`. -/
def metadataOf (body : List UInt8) : Except Outcome Metadata :=
  if body.isEmpty then .ok .empty
  else
    match Body.read body with
    | .ok (.object fields) => .ok (.ofFields fields)
    | .error (.unreadable .tooDeep) => .error .crash
    | _ => .error (.fault (.invalid "could not unmarshal metadata" []))

/-- The answer with the values of an account's toggles. A fault of `Resolution.ofListing` is counted with
its code, but the answer with status 500 does not show it. -/
def resolve (service : Service) (surroundings : Surroundings) (account : Text) (body : List UInt8) :
    Handled :=
  match accountOf account with
  | .error fault => ⟨service.metrics, .fault fault⟩
  | .ok id =>
    match metadataOf body with
    | .error outcome => ⟨service.metrics, outcome⟩
    | .ok metadata =>
      let listing := service.listing surroundings id
      let metrics := Resolution.record listing surroundings.resolutionTime service.metrics
      match Resolution.ofListing id metadata listing with
      | .ok resolution => ⟨metrics, .ok resolution.toJson⟩
      | .error fault =>
        ⟨metrics.recordError fault.code none, .detail 500 "could not resolve toggles"⟩

/-! ### Rules -/

/-- The fields of a request's body. An empty or malformed body and a value that is no object are a
`misfit`; a body that cannot be read for another reason is answered with status 400. -/
def fieldsOf (body : List UInt8) : Except Outcome (List (Text × Json)) :=
  if body.isEmpty then .error (.misfit .null)
  else
    match Body.read body with
    | .ok (.object fields) => .ok fields
    | .ok value => .error (.misfit value)
    | .error (.unreadable .malformed) => .error (.misfit .null)
    | .error _ => .error (.detail 400 "There was an error parsing the body")

/-- The answer with the stored form of a rule text, in which `Json.standardized` replaces every number
that is not finite. -/
def parseRule (body : List UInt8) : Outcome :=
  match fieldsOf body with
  | .error outcome => outcome
  | .ok fields =>
    match Json.fieldOf? "expression" fields with
    | some (.string text) =>
      match RuleText.parse text with
      | .ok e => .ok (.object [("expression", e.encode.standardized),
          ("identifiers", .array (e.names.map .string))])
      | .error error => .fault (.badText text error)
    | some value => .misfit value
    | none => .misfit (.object fields)

/-- The names that rules read, each once, in the order in which they first occur. `Rule.validate` refuses
the first rule that is not joined by a logical operator. -/
def validNames (rules : List Rule) : Except Fault (List Text) :=
  rules.foldlM (fun names rule => do
    rule.validate
    return rule.expr.names.foldl (fun names name => if name ∈ names then names else names ++ [name]) names)
    []

/-- The answer to whether stored rules are valid. `Rule.decodeItems` decodes all of them before
`validNames` validates the first. -/
def validateItems (items : List Json) : Outcome :=
  match Rule.decodeItems 0 items with
  | .error e => .ofFailure (.ofUndecoded e)
  | .ok rules =>
    match validNames rules with
    | .error fault => .fault fault
    | .ok names => .ok (.object [("valid", .bool true), ("identifiers", .array (names.map .string))])

/-- The answer to whether the rules of a request are valid. Without the field `rules` there are none. -/
def validateRules (body : List UInt8) : Outcome :=
  match fieldsOf body with
  | .error outcome => outcome
  | .ok fields =>
    match Json.fieldOf? "rules" fields with
    | none => validateItems []
    | some (.array items) => validateItems items
    | some value => .misfit value

/-! ### Dispatch -/

/-- The handler of a route. -/
def handle (service : Service) (surroundings : Surroundings) (request : Request) : Route → Handled
  | .root => ⟨service.metrics, .ok service.selfDescription⟩
  | .health => service.checkHealth surroundings
  | .metrics => ⟨service.metrics, service.showMetrics⟩
  | .page => ⟨service.metrics, .answer 200 none⟩
  | .stats => ⟨service.metrics, service.showStats surroundings⟩
  | .toggles account => ⟨service.metrics, service.showToggles surroundings account⟩
  | .resolve account => service.resolve surroundings account request.body
  | .parseRule => ⟨service.metrics, parseRule request.body⟩
  | .validateRules => ⟨service.metrics, validateRules request.body⟩

/-- The outcome of a request by its path: that of the route's handler, or an answer with status 405, 307
or 404 if there is no handler for it. -/
def follow (service : Service) (surroundings : Surroundings) (request : Request) : Handled :=
  match Route.ofPath? service.isLocal request.path with
  | some route =>
    if request.method ∈ route.methods then service.handle surroundings request route
    else ⟨service.metrics, .detail 405 "Method Not Allowed"⟩
  | none =>
    if Route.redirects service.isLocal request.path then ⟨service.metrics, .answer 307 none⟩
    else ⟨service.metrics, .detail 404 "Not Found"⟩

/-- The outcome of a request. A preflight is answered whatever its path is. -/
def dispatch (service : Service) (surroundings : Surroundings) (request : Request) : Handled :=
  match Preflight.outcome? service.isLocal request with
  | some outcome => ⟨service.metrics, outcome⟩
  | none => service.follow surroundings request

end Service

end FeatureToggles
