import FeatureToggles.Proofs.ResolveRequest
import Mathlib.Data.List.Count

/-!
# Counts of requests

A request adds one to `Metrics.requests` if its answer has a correlation, and one to `Metrics.errors`
under `internalCode` otherwise. Besides, a `Fault` that ended the request is counted with its code, also
if the answer only says that toggles could not be resolved. `Exchange.labels` and `Exchange.codes` are
what one request adds; `Metrics.Adds` states this for one request, and `Metrics.Tells` for all requests of
a run.
-/

namespace FeatureToggles

/-- The fault of an `Outcome.fault`. -/
def Outcome.fault? : Outcome → Option Fault
  | .fault cause => some cause
  | _ => none

/-- Whether the outcome is `Outcome.crash`. -/
def Outcome.isCrash : Outcome → Bool
  | .crash => true
  | _ => false

/-- A request, how it ended, and its answer. -/
structure Exchange where
  request : Request
  /-- The fault that ended the request, whether or not the answer shows it. -/
  fault? : Option Fault
  /-- Whether the request ended with `Outcome.crash`. -/
  crashed : Bool
  response : Response

namespace Exchange

/-- The labels that the request adds to `Metrics.requests`: its own, if its answer has a correlation. -/
def labels (exchange : Exchange) : List RequestLabels :=
  exchange.response.correlation.toList.map fun _ =>
    ⟨⟨exchange.request.method, exchange.request.endpoint⟩,
      Text.ofList (Decimal.intText exchange.response.status)⟩

/-- The codes that the request adds to `Metrics.errors`. -/
def codes (exchange : Exchange) : List Text :=
  (exchange.fault?.map (·.code)).toList ++ if exchange.crashed then [Service.internalCode] else []

end Exchange

namespace Service

/-- The route whose handler gets the request, if there is one. -/
def route? (service : Service) (request : Request) : Option Route :=
  match Preflight.outcome? service.isLocal request with
  | some _ => none
  | none =>
    match Route.ofPath? service.isLocal request.path with
    | some route => if request.method ∈ route.methods then some route else none
    | none => none

variable [JsonLibrary]

/-- The fault of `Resolution.ofListing` in `resolve`, if the request gets that far and fails there. -/
def unresolved? (service : Service) (surroundings : Surroundings) (account : Text) (body : List UInt8) :
    Option Fault :=
  match accountOf account with
  | .error _ => none
  | .ok id =>
    match metadataOf body with
    | .error _ => none
    | .ok metadata =>
      match Resolution.ofListing id metadata (service.listing surroundings id) with
      | .ok _ => none
      | .error fault => some fault

/-- The fault that is counted for a request but not shown in its answer. -/
def hidden? (service : Service) (surroundings : Surroundings) (request : Request) : Option Fault :=
  match service.route? request with
  | some (.resolve account) => service.unresolved? surroundings account request.body
  | _ => none

/-- The `Exchange` of a request. -/
def exchange (service : Service) (surroundings : Surroundings) (request : Request) : Exchange where
  request
  fault? := (service.hidden? surroundings request).or
    (service.dispatch surroundings request).outcome.fault?
  crashed := (service.dispatch surroundings request).outcome.written.isCrash
  response := (service.respond surroundings request).2

end Service

/-- A step in a run of a service: a request, a new toggle, or a start or stop of the store. -/
inductive ServiceStep where
  | ask (surroundings : Surroundings) (request : Request)
  | add (toggle : Toggle)
  | start (failure : Option Failure)
  | stop

namespace ServiceStep

variable [JsonLibrary]

/-- The service after a step. -/
def apply (service : Service) : ServiceStep → Service
  | ask surroundings request => (service.respond surroundings request).1
  | add toggle => service.addToggle toggle
  | start failure => (service.start failure).2
  | stop => service.stop

/-- The exchange of a step, if the step is a request. -/
def exchange? (service : Service) : ServiceStep → Option Exchange
  | ask surroundings request => some (service.exchange surroundings request)
  | _ => none

end ServiceStep

namespace Service

variable [JsonLibrary]

/-- The service after steps. -/
def run (service : Service) (steps : List ServiceStep) : Service :=
  steps.foldl ServiceStep.apply service

/-- The exchanges of the requests among steps, in order. -/
def exchanges (service : Service) : List ServiceStep → List Exchange
  | [] => []
  | step :: steps => (step.exchange? service).toList ++ (step.apply service).exchanges steps

end Service

namespace Tally

variable {κ : Type} [DecidableEq κ]

theorem count_foldl_add (tally : Tally κ) (labels : List κ) (other : κ) :
    (labels.foldl add tally).count other = tally.count other + labels.count other := by
  induction labels generalizing tally with
  | nil => rfl
  | cons label labels ih =>
    rw [List.foldl_cons, ih, count_add, List.count_cons]
    by_cases h : label = other
    · simp [h, Nat.add_right_comm, Nat.add_assoc]
    · simp [h, Ne.symm h]

theorem total_foldl_add (tally : Tally κ) (labels : List κ) :
    (labels.foldl add tally).total = tally.total + labels.length := by
  induction labels generalizing tally with
  | nil => rfl
  | cons label labels ih =>
    rw [List.foldl_cons, ih, total_add, List.length_cons]
    omega

end Tally

namespace Metrics

/-- The labels of an error of the service `owner`. -/
def ownError (owner code : Text) : ErrorLabels := ⟨code, owner⟩

/-- Whether `later` counts the given labels and codes in addition to the requests and errors of `earlier`.
-/
structure Adds (earlier later : Metrics) (labels : List RequestLabels) (codes : List Text) : Prop where
  service_eq : later.service = earlier.service
  requests_eq : later.requests = labels.foldl Tally.add earlier.requests
  errors_eq : later.errors = (codes.map (ownError earlier.service)).foldl Tally.add earlier.errors

/-- Whether the requests and errors that the service `owner` counts are those of the exchanges in `log`.
-/
structure Tells (m : Metrics) (owner : Text) (log : List Exchange) : Prop where
  service_eq : m.service = owner
  requests_eq : ∀ label, m.requests.count label = (log.flatMap (·.labels)).count label
  requests_total_eq : m.requests.total = (log.flatMap (·.labels)).length
  errors_eq : ∀ code, m.errors.count ⟨code, owner⟩ = (log.flatMap (·.codes)).count code
  errors_total_eq : m.errors.total = (log.flatMap (·.codes)).length

/-! ### Counting -/

variable {m₁ m₂ m₃ : Metrics} {labels labels' : List RequestLabels} {codes codes' : List Text}

theorem Adds.refl (m : Metrics) : m.Adds m [] [] :=
  ⟨rfl, rfl, rfl⟩

/-- Two additions make one, with the labels and codes of the first one in front. -/
theorem Adds.trans (h₁ : m₁.Adds m₂ labels codes) (h₂ : m₂.Adds m₃ labels' codes') :
    m₁.Adds m₃ (labels ++ labels') (codes ++ codes') := by
  constructor
  · rw [h₂.service_eq, h₁.service_eq]
  · rw [h₂.requests_eq, h₁.requests_eq, List.foldl_append]
  · rw [h₂.errors_eq, h₁.errors_eq, h₁.service_eq, List.map_append, List.foldl_append]

theorem recordError_adds (m : Metrics) (code : Text) : m.Adds (m.recordError code none) [] [code] :=
  ⟨rfl, rfl, rfl⟩

theorem count_adds (m : Metrics) (surroundings : Surroundings) (request : Request) (status : Int) :
    m.Adds (Service.count m surroundings request status)
      [⟨⟨request.method, request.endpoint⟩, Text.ofList (Decimal.intText status)⟩] [] :=
  ⟨rfl, rfl, rfl⟩

/-- With the labels and codes of one more exchange, the exchanges that are counted are one more. -/
theorem Tells.concat {owner : Text} {log : List Exchange} (h : m₁.Tells owner log)
    {exchange : Exchange} (hadds : m₁.Adds m₂ exchange.labels exchange.codes) :
    m₂.Tells owner (log ++ [exchange]) := by
  have hcode : Function.Injective (ownError owner) := fun code code' hcodes => by
    rw [ownError, ownError, ErrorLabels.mk.injEq] at hcodes
    exact hcodes.1
  have herrors := hadds.errors_eq
  rw [h.service_eq] at herrors
  constructor
  · rw [hadds.service_eq, h.service_eq]
  · intro label
    rw [hadds.requests_eq, Tally.count_foldl_add, h.requests_eq, List.flatMap_append, List.count_append,
      List.flatMap_singleton]
  · rw [hadds.requests_eq, Tally.total_foldl_add, h.requests_total_eq, List.flatMap_append,
      List.length_append, List.flatMap_singleton]
  · intro code
    have hcount : (exchange.codes.map (ownError owner)).count ⟨code, owner⟩ = exchange.codes.count code :=
      List.count_map_of_injective exchange.codes _ hcode code
    rw [herrors, Tally.count_foldl_add, h.errors_eq, List.flatMap_append, List.count_append,
      List.flatMap_singleton, hcount]
  · rw [herrors, Tally.total_foldl_add, h.errors_total_eq, List.flatMap_append, List.length_append,
      List.flatMap_singleton, List.length_map]

end Metrics

/-! ### Counts over all exchanges -/

namespace Service

end Service

/-! ### One request -/

namespace Service

/-- Recording a resolution changes neither requests nor errors. -/
theorem record_adds (listing : Except Failure (List Toggle)) (seconds : Binary64) (m : Metrics) :
    m.Adds (Resolution.record listing seconds m) [] [] := by
  cases listing with
  | ok toggles => exact ⟨rfl, rfl, rfl⟩
  | error failure => exact ⟨rfl, rfl, rfl⟩

theorem checkHealth_adds (service : Service) (surroundings : Surroundings) :
    service.metrics.Adds (service.checkHealth surroundings).metrics [] [] := by
  unfold checkHealth
  split
  · exact ⟨rfl, rfl, rfl⟩
  · exact ⟨rfl, rfl, rfl⟩

theorem countFault_adds (handled : Handled) :
    handled.metrics.Adds (countFault handled) [] (handled.outcome.fault?.map (·.code)).toList := by
  obtain ⟨metrics, outcome⟩ := handled
  cases outcome with
  | fault cause => exact Metrics.recordError_adds metrics cause.code
  | _ => exact .refl metrics

/-- The operation `conclude` adds the label of the answer and the code of the outcome, and `internalCode`
for a crash. -/
theorem conclude_adds (surroundings : Surroundings) (request : Request) (handled : Handled) :
    let exchange : Exchange := ⟨request, handled.outcome.fault?, handled.outcome.written.isCrash,
      (conclude surroundings request handled).2⟩
    handled.metrics.Adds (conclude surroundings request handled).1 exchange.labels exchange.codes := by
  intro exchange
  have hfault := countFault_adds handled
  cases hwritten : handled.outcome.written with
  | answer status body =>
    simp only [exchange, conclude, hwritten]
    exact hfault.trans (Metrics.count_adds _ surroundings request status)
  | fault cause =>
    simp only [exchange, conclude, hwritten]
    exact hfault.trans (Metrics.count_adds _ surroundings request cause.status)
  | crash =>
    simp only [exchange, conclude, hwritten]
    exact hfault.trans (Metrics.recordError_adds _ internalCode)

section

variable [JsonLibrary] {service : Service} {surroundings : Surroundings} {request : Request}

theorem dispatch_of_route {route : Route} (h : service.route? request = some route) :
    service.dispatch surroundings request = service.handle surroundings request route := by
  unfold route? at h
  split at h
  · cases h
  · next hpreflight =>
    split at h
    · next found hfound =>
      split at h
      · next hmethod =>
        cases h
        rw [dispatch, hpreflight]
        simp only [follow, hfound, if_pos hmethod]
      · cases h
    · cases h

/-- Without a route there is an answer, and the metrics stay as they are. -/
theorem dispatch_of_no_route (surroundings : Surroundings) (h : service.route? request = none) :
    ∃ status body, service.dispatch surroundings request = ⟨service.metrics, .answer status body⟩ := by
  unfold dispatch
  cases hpreflight : Preflight.outcome? service.isLocal request with
  | some outcome =>
    unfold Preflight.outcome? at hpreflight
    rw [Option.map_eq_some_iff] at hpreflight
    obtain ⟨method, -, rfl⟩ := hpreflight
    exact ⟨_, none, rfl⟩
  | none =>
    simp only [route?, hpreflight] at h
    simp only [follow]
    cases hroute : Route.ofPath? service.isLocal request.path with
    | some route =>
      simp only [hroute] at h
      have hmethod : request.method ∉ route.methods := by
        intro hmem
        rw [if_pos hmem] at h
        cases h
      simp only [if_neg hmethod]
      exact ⟨405, _, rfl⟩
    | none =>
      dsimp only
      split
      · exact ⟨307, none, rfl⟩
      · exact ⟨404, _, rfl⟩

/-- The handler `resolve` adds the code of `unresolved?`. -/
theorem resolve_adds (account : Text) (body : List UInt8) :
    service.metrics.Adds (service.resolve surroundings account body).metrics []
      ((service.unresolved? surroundings account body).map (·.code)).toList := by
  unfold resolve unresolved?
  cases accountOf account with
  | error fault => exact .refl _
  | ok id =>
    cases metadataOf body with
    | error outcome => exact .refl _
    | ok metadata =>
      have hrecord := record_adds (service.listing surroundings id) surroundings.resolutionTime
        service.metrics
      dsimp only
      cases Resolution.ofListing id metadata (service.listing surroundings id) with
      | ok resolution => exact hrecord
      | error fault => exact hrecord.trans (Metrics.recordError_adds _ fault.code)

/-- A fault `unresolved?` is answered with status 500, without the fault. -/
theorem resolve_of_unresolved {account : Text} {body : List UInt8} {fault : Fault}
    (h : service.unresolved? surroundings account body = some fault) :
    (service.resolve surroundings account body).outcome = .detail 500 "could not resolve toggles" := by
  unfold unresolved? at h
  unfold resolve
  cases haccount : accountOf account with
  | error refusal =>
    rw [haccount] at h
    cases h
  | ok id =>
    cases hbody : metadataOf body with
    | error outcome =>
      simp only [haccount, hbody] at h
      cases h
    | ok metadata =>
      simp only [haccount, hbody] at h
      dsimp only
      cases hlisting : Resolution.ofListing id metadata (service.listing surroundings id) with
      | ok resolution =>
        rw [hlisting] at h
        cases h
      | error cause => rfl

/-- Handling a request adds the code of `hidden?`. -/
theorem dispatch_adds (service : Service) (surroundings : Surroundings) (request : Request) :
    service.metrics.Adds (service.dispatch surroundings request).metrics []
      ((service.hidden? surroundings request).map (·.code)).toList := by
  unfold hidden?
  cases hroute : service.route? request with
  | none =>
    obtain ⟨status, body, hdispatch⟩ := dispatch_of_no_route surroundings hroute
    rw [hdispatch]
    exact .refl _
  | some route =>
    rw [dispatch_of_route hroute]
    cases route with
    | resolve account => exact resolve_adds account request.body
    | health => exact checkHealth_adds service surroundings
    | _ => exact .refl _

/-- A fault `hidden?` is answered with status 500, without the fault. -/
theorem outcome_of_hidden {fault : Fault} (h : service.hidden? surroundings request = some fault) :
    (service.dispatch surroundings request).outcome = .detail 500 "could not resolve toggles" := by
  unfold hidden? at h
  split at h
  · next account hroute =>
    rw [dispatch_of_route hroute, handle]
    exact resolve_of_unresolved h
  · cases h

/-- A request adds the labels and codes of its `exchange`. -/
theorem respond_adds (service : Service) (surroundings : Surroundings) (request : Request) :
    service.metrics.Adds (service.respond surroundings request).1.metrics
      (service.exchange surroundings request).labels (service.exchange surroundings request).codes := by
  have hcodes : (service.exchange surroundings request).codes
      = ((service.hidden? surroundings request).map (·.code)).toList ++
        Exchange.codes ⟨request, (service.dispatch surroundings request).outcome.fault?,
          (service.dispatch surroundings request).outcome.written.isCrash,
          (service.respond surroundings request).2⟩ := by
    unfold Exchange.codes exchange
    cases hhidden : service.hidden? surroundings request with
    | none => rfl
    | some fault =>
      -- the answer that hides the fault is no fault itself
      rw [outcome_of_hidden hhidden]
      rfl
  rw [hcodes]
  exact (dispatch_adds service surroundings request).trans (conclude_adds surroundings request _)

/-- A step that is no request leaves the metrics as they are. -/
theorem metrics_apply {step : ServiceStep} (h : step.exchange? service = none) :
    (step.apply service).metrics = service.metrics := by
  have honDatabase (work : DatabaseM Unit) : (service.onDatabase work).2.metrics = service.metrics := by
    unfold onDatabase
    split <;> rfl
  cases step with
  | ask surroundings request => cases h
  | add toggle =>
    show (service.addToggle toggle).metrics = service.metrics
    unfold addToggle
    split <;> rfl
  | start failure => exact honDatabase _
  | stop => exact honDatabase _

/-- A step adds its exchange to those that are counted. -/
theorem tells_apply (step : ServiceStep) {owner : Text} {log : List Exchange}
    (h : service.metrics.Tells owner log) :
    (step.apply service).metrics.Tells owner (log ++ (step.exchange? service).toList) := by
  cases step with
  | ask surroundings request => exact h.concat (respond_adds service surroundings request)
  | _ =>
    rw [metrics_apply rfl]
    simpa [ServiceStep.exchange?] using h

theorem tells_run (steps : List ServiceStep) {service : Service} {owner : Text} {log : List Exchange}
    (h : service.metrics.Tells owner log) :
    (service.run steps).metrics.Tells owner (log ++ service.exchanges steps) := by
  induction steps generalizing service log with
  | nil => simpa [exchanges, run] using h
  | cons step steps ih =>
    have hrun := ih (tells_apply step h)
    rw [List.append_assoc] at hrun
    exact hrun

end

attribute [local instance] JsonLibrary.terse

end Service

end FeatureToggles
