import FeatureToggles.Decimal.Layout
import FeatureToggles.Metrics.Basic
import FeatureToggles.Text.Utf8

/-!
# Samples

Metrics as they are collected: names, labels in alphabetical order, and binary64 values.
-/

namespace FeatureToggles

/-- A value at the moment of collection. -/
structure Sample where
  name : String
  /-- Values by label, in alphabetical order of the labels. -/
  labels : List (String × Text)
  value : Binary64

namespace Sample

/-- The name with the labels in braces. -/
def title (s : Sample) : Text :=
  s.name ++ "\x7b" ++ Text.join ((s.labels.map fun (label, value) => label ++ "=" ++ value).intersperse ",")
    ++ "\x7d"

/-- The value as text. -/
def valueText (s : Sample) : Text :=
  Text.ofList (Decimal.floatText .plain s.value)

/-- Whether the sample has bytes. -/
def isWritable (s : Sample) : Bool :=
  s.labels.all (·.2.utf8?.isSome)

/-- Whether the sample counts something. -/
def isCounter (s : Sample) : Bool :=
  s.name.endsWith "_total" || s.name.endsWith "_count"

end Sample

namespace Metrics

/-- The names of the metrics that every service has. -/
def commonNames : List String :=
  ["service_info", "http_requests_total", "http_request_duration_seconds", "health_check_total",
    "errors_total"]

/-- The names of the metrics of the service that resolves toggles. -/
def resolutionNames : List String :=
  ["toggle_resolutions_total", "toggle_resolution_duration_seconds", "toggles_evaluated_total"]

/-- The names of a service's metrics. -/
def names (m : Metrics) : List String :=
  if m.resolution.isSome then commonNames ++ resolutionNames else commonNames

/-- Counts as samples, with the labels that `labelled` gives each of them. -/
def tallySamples {κ : Type} (name : String) (labelled : κ → List (String × Text)) (tally : Tally κ) :
    List Sample :=
  tally.entries.map fun (label, count) => ⟨name, labelled label, .ofNat count⟩

/-- Durations as two samples. -/
def durationSamples (name : String) (labels : List (String × Text)) (durations : Durations) :
    List Sample :=
  [⟨name ++ "_count", labels, .ofNat durations.count⟩, ⟨name ++ "_sum", labels, durations.sum⟩]

/-- The labels of an endpoint. -/
def endpointLabelled (labels : EndpointLabels) : List (String × Text) :=
  [("endpoint", labels.endpoint), ("method", labels.method)]

/-- The labels of a request. -/
def requestLabelled (labels : RequestLabels) : List (String × Text) :=
  endpointLabelled labels.toEndpointLabels ++ [("status_code", labels.status)]

/-- The labels of an error. -/
def errorLabelled (labels : ErrorLabels) : List (String × Text) :=
  [("error_type", labels.code), ("service", labels.service)]

/-- A constant sample that names the service and its version. -/
def infoSample (m : Metrics) : Sample :=
  ⟨"service_info_info", [("service", m.service), ("version", "1.0.0")], .ofNat 1⟩

/-- What the service that resolves toggles collects besides. -/
def resolutionSamples (r : ResolutionMetrics) : List Sample :=
  tallySamples "toggle_resolutions_total" (fun outcome => [("outcome", outcome)]) r.outcomes
    ++ durationSamples "toggle_resolution_duration_seconds" [] r.durations
    ++ [⟨"toggles_evaluated_total", [], .ofNat r.evaluated⟩]

/-- Everything that is collected. -/
def samples (m : Metrics) : List Sample :=
  infoSample m :: tallySamples "http_requests_total" requestLabelled m.requests
    ++ m.requestDurations.entries.flatMap (fun (labels, durations) =>
      durationSamples "http_request_duration_seconds" (endpointLabelled labels) durations)
    ++ tallySamples "health_check_total" (fun status => [("status", status)]) m.healthChecks
    ++ tallySamples "errors_total" errorLabelled m.errors
    ++ (m.resolution.map resolutionSamples).getD []

/-- What counts something. -/
def counters (m : Metrics) : List Sample :=
  m.samples.filter (·.isCounter)

end Metrics

end FeatureToggles
