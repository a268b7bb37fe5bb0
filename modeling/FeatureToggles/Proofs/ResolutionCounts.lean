import FeatureToggles.Proofs.LastWins

/-!
# Counts of resolutions

A resolver with metrics counts each `Resolver.resolve` in `ResolutionMetrics` and no other step. Its
answers do not depend on its metrics.
-/

namespace FeatureToggles

/-- A duration in seconds. -/
structure Elapsed where
  seconds : Binary64
  ne_nan : seconds ≠ .nan

/-- A resolution: the listing of the account's toggles, and the answer. -/
structure Resolved where
  listing : Except Failure (List Toggle)
  answer : Except Fault Resolution

namespace Resolved

/-- Whether the answer gives values. -/
def succeeded (resolved : Resolved) : Bool :=
  resolved.answer.isOk

/-- How many toggles were listed, each of those with one key counted. -/
def listed (resolved : Resolved) : ℕ :=
  match resolved.listing with
  | .ok toggles => toggles.length
  | .error _ => 0

end Resolved

/-- A step in a run of a resolver. -/
inductive ResolverStep where
  | change (step : StoreStep)
  /-- Lets listing fail from now on, or no longer. -/
  | fail (failure : Option Failure)
  | resolve (account : Uuid) (metadata : Metadata) (elapsed : Elapsed)

namespace ResolverStep

/-- The resolver after a step. -/
def apply (resolver : Resolver) : ResolverStep → Resolver
  | change step => { resolver with store := step.apply resolver.store }
  | fail failure => { resolver with failure }
  | resolve account metadata elapsed => (resolver.resolve account metadata elapsed.seconds).1

/-- The resolution of a step, if the step is one. -/
def resolved? (resolver : Resolver) : ResolverStep → Option Resolved
  | change _ => none
  | fail _ => none
  | resolve account metadata elapsed =>
    some ⟨resolver.listing account, (resolver.resolve account metadata elapsed.seconds).2⟩

end ResolverStep

namespace Resolver

/-- The resolver with other metrics, or with none. -/
def counting (resolver : Resolver) (metrics : Option Metrics) : Resolver :=
  { resolver with metrics }

/-- The resolver after steps. -/
def run (resolver : Resolver) (steps : List ResolverStep) : Resolver :=
  steps.foldl ResolverStep.apply resolver

/-- The resolutions among steps, in order. -/
def resolves (resolver : Resolver) : List ResolverStep → List Resolved
  | [] => []
  | step :: steps => (step.resolved? resolver).toList ++ (step.apply resolver).resolves steps

end Resolver

namespace ResolutionMetrics

/-- The metrics after one more resolution. -/
def after (listing : Except Failure (List Toggle)) (seconds : Binary64) (r : ResolutionMetrics) :
    ResolutionMetrics :=
  match listing with
  | .ok toggles => ⟨r.outcomes.add "ok", r.durations.observe seconds, r.evaluated + toggles.length⟩
  | .error _ => { r with outcomes := r.outcomes.add "error" }

/-- Whether the resolutions that are counted are those in `log`. -/
structure Tells (r : ResolutionMetrics) (log : List Resolved) : Prop where
  ok_eq : r.outcomes.count "ok" = log.countP (·.succeeded)
  durations_eq : r.durations.count = log.countP (·.succeeded)
  error_eq : r.outcomes.count "error" = log.countP (!·.succeeded)
  total_eq : r.outcomes.total = log.length
  evaluated_eq : r.evaluated = ((log.filter (·.succeeded)).map (·.listed)).sum

theorem tells_nil : Tells ⟨.empty, .none, 0⟩ [] :=
  ⟨rfl, rfl, rfl, rfl, rfl⟩

end ResolutionMetrics

/-! ### One more step -/

theorem Durations.count_observe (durations : Durations) (elapsed : Elapsed) :
    (durations.observe elapsed.seconds).count = durations.count + 1 := by
  rw [observe, if_neg elapsed.ne_nan]

/-- The operation `Resolution.record` changes no metrics but those of resolutions. -/
theorem Resolution.record_eq (listing : Except Failure (List Toggle)) (seconds : Binary64) (m : Metrics) :
    record listing seconds m
      = { m with resolution := m.resolution.map (ResolutionMetrics.after listing seconds) } := by
  cases listing with
  | ok toggles =>
    rw [record, Metrics.recordResolutionTime, Metrics.recordResolution, Option.map_map]
    rfl
  | error failure => rfl

/-- After one more resolution, the resolutions that are counted are one more. -/
theorem ResolutionMetrics.Tells.after {r : ResolutionMetrics} {log : List Resolved} (h : r.Tells log)
    (listing : Except Failure (List Toggle)) (account : Uuid) (metadata : Metadata) (elapsed : Elapsed) :
    (r.after listing elapsed.seconds).Tells
      (log ++ [⟨listing, Resolution.ofListing account metadata listing⟩]) := by
  cases listing with
  | ok toggles =>
    have hsucceeded :
        (Resolved.mk (.ok toggles) (Resolution.ofListing account metadata (.ok toggles))).succeeded
          = true := rfl
    constructor
    · simp [ResolutionMetrics.after, Tally.count_add, h.ok_eq, hsucceeded]
    · simp [ResolutionMetrics.after, Durations.count_observe, h.durations_eq, hsucceeded]
    · simp [ResolutionMetrics.after, Tally.count_add, h.error_eq, hsucceeded]
    · simp [ResolutionMetrics.after, Tally.total_add, h.total_eq]
    · simp [ResolutionMetrics.after, h.evaluated_eq, hsucceeded, Resolved.listed]
  | error failure =>
    have hfailed :
        (Resolved.mk (.error failure) (Resolution.ofListing account metadata (.error failure))).succeeded
          = false := rfl
    constructor
    · simp [ResolutionMetrics.after, Tally.count_add, h.ok_eq, hfailed]
    · simp [ResolutionMetrics.after, h.durations_eq, hfailed]
    · simp [ResolutionMetrics.after, Tally.count_add, h.error_eq, hfailed]
    · simp [ResolutionMetrics.after, Tally.total_add, h.total_eq]
    · simp [ResolutionMetrics.after, h.evaluated_eq, hfailed]

namespace ResolverStep

variable (resolver : Resolver) (step : ResolverStep)

/-- A step that does not resolve leaves the metrics as they are. -/
theorem metrics_apply (h : step.resolved? resolver = none) :
    (step.apply resolver).metrics = resolver.metrics := by
  cases step with
  | change _ => rfl
  | fail _ => rfl
  | resolve account metadata elapsed => cases h

/-- Without `ResolutionMetrics` the metrics stay as they are. -/
theorem metrics_apply_of_resolution {m : Metrics} (hmetrics : resolver.metrics = some m)
    (hresolution : m.resolution = none) : (step.apply resolver).metrics = some m := by
  cases step with
  | change _ => exact hmetrics
  | fail _ => exact hmetrics
  | resolve account metadata elapsed =>
    show resolver.metrics.map _ = some m
    rw [hmetrics, Option.map_some, Resolution.record_eq, hresolution]
    cases m
    cases hresolution
    rfl

/-- A step adds its resolution to those that are counted. -/
theorem tells_apply {m : Metrics} {r : ResolutionMetrics} {log : List Resolved}
    (hmetrics : resolver.metrics = some { m with resolution := some r }) (hr : r.Tells log) :
    ∃ r', (step.apply resolver).metrics = some { m with resolution := some r' } ∧
      r'.Tells (log ++ (step.resolved? resolver).toList) := by
  cases step with
  | change _ => exact ⟨r, hmetrics, by simpa [resolved?] using hr⟩
  | fail _ => exact ⟨r, hmetrics, by simpa [resolved?] using hr⟩
  | resolve account metadata elapsed =>
    refine ⟨r.after (resolver.listing account) elapsed.seconds, ?_, hr.after _ account metadata elapsed⟩
    show resolver.metrics.map _ = _
    rw [hmetrics, Option.map_some, Resolution.record_eq]
    rfl

/-- A step does the same to a resolver with other metrics, but for the metrics. -/
theorem apply_counting (metrics : Option Metrics) :
    ∃ later, step.apply (resolver.counting metrics) = (step.apply resolver).counting later := by
  cases step with
  | change _ => exact ⟨metrics, rfl⟩
  | fail _ => exact ⟨metrics, rfl⟩
  | resolve account metadata elapsed => exact ⟨_, rfl⟩

theorem resolved?_counting (metrics : Option Metrics) :
    step.resolved? (resolver.counting metrics) = step.resolved? resolver := by
  cases step <;> rfl

end ResolverStep

/-! ### Whole runs -/

namespace Resolver

theorem metrics_run_of_resolution {m : Metrics} (hresolution : m.resolution = none)
    (steps : List ResolverStep) {resolver : Resolver} (hmetrics : resolver.metrics = some m) :
    (resolver.run steps).metrics = some m := by
  induction steps generalizing resolver with
  | nil => exact hmetrics
  | cons step steps ih => exact ih (step.metrics_apply_of_resolution resolver hmetrics hresolution)

theorem metrics_run_of_none (steps : List ResolverStep) {resolver : Resolver}
    (hmetrics : resolver.metrics = none) : (resolver.run steps).metrics = none := by
  induction steps generalizing resolver with
  | nil => exact hmetrics
  | cons step steps ih =>
    have hstep : (step.apply resolver).metrics = none := by
      cases step with
      | change _ => exact hmetrics
      | fail _ => exact hmetrics
      | resolve account metadata elapsed => exact Option.map_eq_none_iff.2 hmetrics
    exact ih hstep

/-- Steps add their resolutions to those that are counted. -/
theorem tells_run (steps : List ResolverStep) {resolver : Resolver} {m : Metrics} {r : ResolutionMetrics}
    {log : List Resolved} (hmetrics : resolver.metrics = some { m with resolution := some r })
    (hr : r.Tells log) :
    ∃ r', (resolver.run steps).metrics = some { m with resolution := some r' } ∧
      r'.Tells (log ++ resolver.resolves steps) := by
  induction steps generalizing resolver r log with
  | nil => exact ⟨r, hmetrics, by simpa [resolves] using hr⟩
  | cons step steps ih =>
    obtain ⟨r₁, hmetrics₁, hr₁⟩ := step.tells_apply resolver hmetrics hr
    obtain ⟨r₂, hmetrics₂, hr₂⟩ := ih hmetrics₁ hr₁
    rw [List.append_assoc] at hr₂
    exact ⟨r₂, hmetrics₂, hr₂⟩

/-- The resolutions do not depend on the metrics. -/
theorem resolves_counting (steps : List ResolverStep) (resolver : Resolver) (metrics : Option Metrics) :
    (resolver.counting metrics).resolves steps = resolver.resolves steps := by
  induction steps generalizing resolver metrics with
  | nil => rfl
  | cons step steps ih =>
    obtain ⟨later, hlater⟩ := step.apply_counting resolver metrics
    rw [resolves, resolves, step.resolved?_counting, hlater, ih]

/-- **Counts of resolutions.** After any steps the metrics of the service `toggles` count the resolutions
that succeeded and their durations, those that failed, and the toggles that were listed for those that
succeeded; nothing else in them has changed, and only steps that resolve change them. The metrics of any
other service stay as they are. The answers of a resolver do not depend on its metrics. -/
theorem resolutions_counted (resolver : Resolver) (steps : List ResolverStep) :
    (∃ r : ResolutionMetrics,
      ((resolver.counting (some (.forService "toggles"))).run steps).metrics
        = some { Metrics.forService "toggles" with resolution := some r } ∧
      r.outcomes.count "ok" = (resolver.resolves steps).countP (·.succeeded) ∧
      r.durations.count = (resolver.resolves steps).countP (·.succeeded) ∧
      r.outcomes.count "error" = (resolver.resolves steps).countP (!·.succeeded) ∧
      r.outcomes.total = (resolver.resolves steps).length ∧
      r.evaluated = (((resolver.resolves steps).filter (·.succeeded)).map (·.listed)).sum) ∧
    (∀ step : ResolverStep, step.resolved? resolver = none →
      (step.apply resolver).metrics = resolver.metrics) ∧
    (∀ name : Text, name ≠ "toggles" →
      ((resolver.counting (some (.forService name))).run steps).metrics = some (.forService name)) ∧
    ((resolver.counting none).run steps).metrics = none ∧
    ∀ metrics, (resolver.counting metrics).resolves steps = resolver.resolves steps := by
  refine ⟨?_, fun step => step.metrics_apply resolver, fun name hname => ?_,
    metrics_run_of_none steps rfl, resolves_counting steps resolver⟩
  · have hfresh : (resolver.counting (some (.forService "toggles"))).metrics
        = some { Metrics.forService "toggles" with resolution := some ⟨.empty, .none, 0⟩ } := rfl
    obtain ⟨r, hmetrics, hr⟩ := tells_run steps hfresh ResolutionMetrics.tells_nil
    rw [List.nil_append, resolves_counting] at hr
    exact ⟨r, hmetrics, hr.ok_eq, hr.durations_eq, hr.error_eq, hr.total_eq, hr.evaluated_eq⟩
  · exact metrics_run_of_resolution (if_neg hname) steps rfl

/-- Two toggles with one key are listed, then listing fails; a service that checks health counts nothing. -/
theorem resolutions_counted_failing :
    let account : Uuid := ⟨7, by decide⟩
    let older : Toggle := .bare ⟨1, by decide⟩ account "beta" []
    let newer : Toggle := .bare ⟨2, by decide⟩ account "beta" []
    let second : Elapsed := ⟨.ofNat 1, by decide⟩
    let resolver : Resolver := ⟨.empty, none, none⟩
    let steps : List ResolverStep := [.change (.add older), .change (.add newer),
      .resolve account .empty second, .fail (some (.system "refused")), .resolve account .empty second]
    (∃ r : ResolutionMetrics,
      ((resolver.counting (some (.forService "toggles"))).run steps).metrics
        = some { Metrics.forService "toggles" with resolution := some r } ∧
      r.outcomes.count "ok" = 1 ∧ r.durations.count = 1 ∧ r.outcomes.count "error" = 1 ∧
      r.outcomes.total = 2 ∧ r.evaluated = 2) ∧
    (ResolverStep.apply resolver (.fail none)).metrics = none ∧
    ((resolver.counting (some (.forService "health"))).run steps).metrics = some (.forService "health") := by
  intro account older newer second resolver steps
  obtain ⟨hcounted, hother, hname, -, -⟩ := resolutions_counted resolver steps
  exact ⟨hcounted, hother (.fail none) rfl, hname "health" (by decide)⟩

end Resolver

end FeatureToggles
