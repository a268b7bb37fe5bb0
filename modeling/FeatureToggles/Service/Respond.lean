import FeatureToggles.Service.Handler

/-!
# Answering requests

`respond` turns the `Outcome` of `dispatch` into a `Response` and counts it. `countFault` counts a `Fault`
with its code before `Outcome.written` decides whether the answer can be written. `Outcome.crash` is
answered with `internalError`, which has neither a cause nor a correlation, and is counted with
`internalCode` among the errors only.
-/

namespace FeatureToggles.Service

variable [JsonLibrary]

/-- The code of an `Outcome.crash`. -/
def internalCode : Text := "INTERNAL_ERROR"

/-- The answer to an `Outcome.crash`. -/
def internalError : Response where
  status := 500
  body := some (.object [("code", .string internalCode), ("message", .string "Internal server error"),
    ("details", .object [])])
  correlation := none

/-- Counts an answer with the given status. -/
def count (metrics : Metrics) (surroundings : Surroundings) (request : Request) (status : Int) :
    Metrics :=
  metrics.recordRequest
    ⟨⟨request.method, request.endpoint⟩, Text.ofList (Decimal.intText status)⟩
    surroundings.requestTime

/-- The metrics after an `Outcome.fault` was counted with its code. -/
def countFault (handled : Handled) : Metrics :=
  match handled.outcome with
  | .fault cause => handled.metrics.recordError cause.code none
  | _ => handled.metrics

/-- The answer to a request with the given `Outcome`, and the metrics after counting it. A fault is
counted before it is written. -/
def conclude (surroundings : Surroundings) (request : Request) (handled : Handled) :
    Metrics × Response :=
  match handled.outcome.written with
  | .answer status body =>
    (count (countFault handled) surroundings request status, ⟨status, body, some request.correlation⟩)
  | .fault cause =>
    (count (countFault handled) surroundings request cause.status,
      ⟨cause.status, some cause.toJson, some request.correlation⟩)
  | .crash => ((countFault handled).recordError internalCode none, internalError)

/-- The service after a request, and its answer. -/
def respond (service : Service) (surroundings : Surroundings) (request : Request) :
    Service × Response :=
  let (metrics, response) := conclude surroundings request (service.dispatch surroundings request)
  ({ service with metrics }, response)

end FeatureToggles.Service
