import FeatureToggles.Decimal.Binary64
import FeatureToggles.OrderedMap
import FeatureToggles.Text.Basic

/-!
# Metrics

What a service counts: requests and their durations, health checks, errors and, in the service that
resolves toggles, resolutions. Each count belongs to labels; labels appear with their first count.
-/

namespace FeatureToggles

/-- Counts by label, in the order of first use. -/
abbrev Tally (κ : Type) := OrderedMap κ Nat

namespace Tally

variable {κ : Type} [DecidableEq κ]

/-- Counts one more of a label. -/
def add (tally : Tally κ) (label : κ) : Tally κ :=
  tally.alter label fun count => count.getD 0 + 1

/-- How many of a label were counted. -/
def count (tally : Tally κ) (label : κ) : Nat :=
  (tally.get? label).getD 0

/-- How many were counted of all labels. -/
def total (tally : Tally κ) : Nat :=
  tally.values.foldr (· + ·) 0

theorem count_add (tally : Tally κ) (label other : κ) :
    (tally.add label).count other = tally.count other + if other = label then 1 else 0 := by
  by_cases h : other = label
  · subst h
    simp [add, count, OrderedMap.get?_alter_self]
  · simp [add, count, OrderedMap.get?_alter_of_ne, h]

theorem total_add (tally : Tally κ) (label : κ) : (tally.add label).total = tally.total + 1 := by
  obtain ⟨entries⟩ := tally
  simp only [total, add, OrderedMap.alter, OrderedMap.values]
  induction entries with
  | nil => simp [OrderedMap.alterEntries]
  | cons head rest ih =>
    by_cases h : head.1 = label
    · simp [OrderedMap.alterEntries, h]
      omega
    · simp [OrderedMap.alterEntries, h, ih]
      omega

end Tally

/-- How many durations were observed, and their sum in seconds. -/
structure Durations where
  count : Nat
  sum : Binary64
  deriving DecidableEq

namespace Durations

/-- No durations at all. -/
def none : Durations := ⟨0, .zero⟩

/-- Observes one more duration. A not-a-number has no place among durations, so it spoils the sum but is
not counted. -/
def observe (durations : Durations) (seconds : Binary64) : Durations :=
  ⟨durations.count + if seconds = .nan then 0 else 1, durations.sum.add seconds⟩

end Durations

/-- What an endpoint was asked to do. -/
structure EndpointLabels where
  method : Text
  endpoint : Text
  deriving DecidableEq

/-- What an endpoint was asked to do and how it answered. -/
structure RequestLabels extends EndpointLabels where
  status : Text
  deriving DecidableEq

/-- An error's code and the service that it arose in. -/
structure ErrorLabels where
  code : Text
  service : Text
  deriving DecidableEq

/-- What the service that resolves toggles counts besides. -/
structure ResolutionMetrics where
  outcomes : Tally Text
  durations : Durations
  /-- How many toggles were evaluated. -/
  evaluated : Nat

/-- What a service counts. -/
structure Metrics where
  service : Text
  requests : Tally RequestLabels
  requestDurations : OrderedMap EndpointLabels Durations
  healthChecks : Tally Text
  errors : Tally ErrorLabels
  resolution : Option ResolutionMetrics

namespace Metrics

/-- The name of the service that resolves toggles. -/
def resolvingService : Text := "toggles"

/-- The metrics of a service before anything was counted. -/
def forService (service : Text) : Metrics where
  service
  requests := .empty
  requestDurations := .empty
  healthChecks := .empty
  errors := .empty
  resolution := if service = resolvingService then some ⟨.empty, .none, 0⟩ else none

/-- Counts an answered request and the time it took. -/
def recordRequest (m : Metrics) (labels : RequestLabels) (seconds : Binary64) : Metrics :=
  { m with
    requests := m.requests.add labels
    requestDurations := m.requestDurations.alter labels.toEndpointLabels fun durations =>
      (durations.getD .none).observe seconds }

/-- Counts a health check and what it found. -/
def recordHealthCheck (m : Metrics) (status : Text) : Metrics :=
  { m with healthChecks := m.healthChecks.add status }

/-- Counts an error of another service, or of this one if no other is named. -/
def recordError (m : Metrics) (code : Text) (service : Option Text) : Metrics :=
  let owner := match service with
    | some name => if name.isEmpty then m.service else name
    | none => m.service
  { m with errors := m.errors.add ⟨code, owner⟩ }

/-- Counts a resolution, its outcome and the toggles it evaluated. -/
def recordResolution (m : Metrics) (outcome : Text) (evaluated : Nat) : Metrics :=
  { m with resolution := m.resolution.map fun r =>
      { r with outcomes := r.outcomes.add outcome, evaluated := r.evaluated + evaluated } }

/-- Counts the time that a resolution took. -/
def recordResolutionTime (m : Metrics) (seconds : Binary64) : Metrics :=
  { m with resolution := m.resolution.map fun r =>
      { r with durations := r.durations.observe seconds } }

end Metrics

end FeatureToggles
