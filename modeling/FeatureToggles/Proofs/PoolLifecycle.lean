import FeatureToggles.Database
import FeatureToggles.Resolution
import Mathlib.Data.List.Induction

/-!
# The life of a pool

The pool is open exactly if a successful `Database.start` came after the last `Database.stop`. A `start`
that fails leaves the database as it is, and so does every `DatabaseQuery`. The result of a query depends
on nothing but the pool and the driver: it is `replyClosed` while the pool is closed, and `replyOpen`
while it is open.
-/

namespace FeatureToggles

/-- A query of a database. -/
inductive DatabaseQuery where
  | list (account : Uuid)
  | fetch (id : Uuid)
  | stats
  | health
  | resolve (account : Uuid) (metadata : Metadata)

/-- The result of a query. -/
inductive DatabaseReply where
  | toggles (found : List Toggle)
  | toggle (found : Option Toggle)
  | stats (found : Json)
  | health (usable : Bool)
  | resolution (values : Resolution)

/-- A step in a run of a database. -/
inductive DatabaseStep where
  /-- Opens the pool, or fails with `failure`. -/
  | start (failure : Option Failure)
  | stop
  | ask (query : DatabaseQuery) (answer : DatabaseAnswer)

namespace DatabaseQuery

variable [JsonLibrary]

/-- Runs a query while the driver gives `answer`. -/
def perform (answer : DatabaseAnswer) : DatabaseQuery → DatabaseM DatabaseReply
  | list account => return .toggles (← Database.list answer account)
  | fetch id => return .toggle (← Database.fetch? answer id)
  | stats => return .stats (← Database.stats answer)
  | health => return .health (← Database.health answer)
  | resolve account metadata => do
    let listing ← observing (Database.list answer account)
    match Resolution.ofListing account metadata listing with
    | .ok values => return .resolution values
    | .error cause => throw (.fault cause)

/-! ### Replies -/

/-- The fault of a query while the pool is closed. -/
def notStarted : Fault := .service "PostgreSQL toggle store is not started" []

/-- The fault of listing toggles if the connection fails. -/
def listingFault (account : Uuid) : Fault :=
  .foreign "postgres" "could not list toggles" [("account_id", .string account.text)]

/-- The fault of fetching a toggle if the connection fails. -/
def fetchingFault (id : Uuid) : Fault :=
  .foreign "postgres" "could not fetch toggle" [("toggle_id", .string id.text)]

/-- The fault of resolving if listing fails with `Failure.other`. -/
def resolutionFault (account : Uuid) : Fault :=
  .unresolved "could not list toggles" [("account_id", .string account.text)]

/-- The reply while the pool is closed: `notStarted`, but for `health`, which is `false`. -/
def replyClosed : DatabaseQuery → Except Failure DatabaseReply
  | list _ => .error (.fault notStarted)
  | fetch _ => .error (.fault notStarted)
  | stats => .error (.fault notStarted)
  | health => .ok (.health false)
  | resolve _ _ => .error (.fault notStarted)

/-- The reply if the connection fails: a `Fault.foreign`, but no statistics for `stats` and `false` for
`health`. -/
def replyUnreachable : DatabaseQuery → Except Failure DatabaseReply
  | list account => .error (.fault (listingFault account))
  | fetch id => .error (.fault (fetchingFault id))
  | stats => .ok (.stats (.object []))
  | health => .ok (.health false)
  | resolve account _ => .error (.fault (listingFault account))

/-- The reply if the driver fails with `Failure.other`: this failure, but `resolutionFault` for `resolve`.
-/
def replyUnexpected (cause : Text) : DatabaseQuery → Except Failure DatabaseReply
  | resolve account _ => .error (.fault (resolutionFault account))
  | _ => .error (.other cause)

/-- The reply if the driver finds the given rows. -/
def replyFound (rows : List ToggleRow) (row : List (Text × Json)) :
    DatabaseQuery → Except Failure DatabaseReply
  | list _ => (Database.readable (ToggleRow.toToggles rows)).map .toggles
  | fetch _ => (Database.readable (rows.head?.mapM (·.toToggle))).map .toggle
  | stats => .ok (.stats (.object row))
  | health => .ok (.health true)
  | resolve account metadata =>
    match ToggleRow.toToggles rows with
    | .ok toggles => .ok (.resolution (Resolution.ofToggles metadata toggles))
    | .error (.defect e) => .error (.fault (.undecodable e))
    | .error .unshowable => .error (.fault (resolutionFault account))

/-- The reply while the pool is open. A `Failure.fault` of the driver is the reply itself. -/
def replyOpen (answer : DatabaseAnswer) (query : DatabaseQuery) : Except Failure DatabaseReply :=
  match answer.failure with
  | none => query.replyFound answer.rows answer.stats
  | some (.database _) => query.replyUnreachable
  | some (.system _) => query.replyUnreachable
  | some (.fault cause) => .error (.fault cause)
  | some (.other cause) => query.replyUnexpected cause

variable {db : Database} {answer : DatabaseAnswer}

/-- While the pool is closed, a query gives `replyClosed` and leaves the database as it is. -/
theorem on_perform_of_closed (h : db.isOpen = false) (query : DatabaseQuery) :
    (query.perform answer).on db = (query.replyClosed, db) := by
  obtain ⟨options, isOpen⟩ := db
  obtain rfl : isOpen = false := h
  cases query <;> rfl

/-- While the pool is open, a query gives `replyOpen` and leaves the database as it is. -/
theorem on_perform_of_open (h : db.isOpen = true) (query : DatabaseQuery) :
    (query.perform answer).on db = (query.replyOpen answer, db) := by
  obtain ⟨options, isOpen⟩ := db
  obtain rfl : isOpen = true := h
  obtain ⟨failure, rows, row⟩ := answer
  cases failure with
  | some failure => cases failure <;> cases query <;> rfl
  | none =>
    have hlist (account : Uuid) : (Database.list ⟨none, rows, row⟩ account).on ⟨options, true⟩
        = (Database.readable (ToggleRow.toToggles rows), ⟨options, true⟩) := rfl
    have hfetch (id : Uuid) : (Database.fetch? ⟨none, rows, row⟩ id).on ⟨options, true⟩
        = (Database.readable (rows.head?.mapM (·.toToggle)), ⟨options, true⟩) := rfl
    cases query with
    | list account =>
      rw [perform, DatabaseM.on_bind, hlist, replyOpen, replyFound]
      cases ToggleRow.toToggles rows <;> rfl
    | fetch id =>
      rw [perform, DatabaseM.on_bind, hfetch, replyOpen, replyFound]
      cases rows.head?.mapM (·.toToggle) <;> rfl
    | stats => rfl
    | health => rfl
    | resolve account metadata =>
      rw [perform, DatabaseM.on_bind, DatabaseM.on_observing, hlist, replyOpen, replyFound]
      cases ToggleRow.toToggles rows with
      | ok toggles => rfl
      | error e => cases e <;> rfl

/-- A query leaves the database as it is. -/
theorem on_perform_snd (db : Database) (answer : DatabaseAnswer) (query : DatabaseQuery) :
    ((query.perform answer).on db).2 = db := by
  cases h : db.isOpen with
  | true => rw [on_perform_of_open h]
  | false => rw [on_perform_of_closed h]

end DatabaseQuery

namespace DatabaseStep

/-- Whether some step is a successful `start` without a `stop` behind it. -/
def OpenedLast (steps : List DatabaseStep) : Prop :=
  ∃ before after, steps = before ++ start none :: after ∧ stop ∉ after

/-! ### One more step -/

/-- A `start` that fails gives the `reported` failure and leaves the database as it is. -/
theorem on_start_some (db : Database) (failure : Failure) :
    (Database.start (some failure)).on db
      = (.error (Database.reported failure failure.message []), db) := rfl

theorem not_openedLast_nil : ¬OpenedLast [] := by
  intro h
  obtain ⟨before, after, hsteps, -⟩ := h
  exact List.append_ne_nil_of_right_ne_nil before (List.cons_ne_nil _ after) hsteps.symm

theorem openedLast_concat_start_none (steps : List DatabaseStep) : OpenedLast (steps ++ [start none]) :=
  ⟨steps, [], rfl, List.not_mem_nil⟩

/-- Steps that end with another step than a successful `start` satisfy `OpenedLast` exactly if they did
without this step and it is no `stop`. -/
theorem openedLast_concat_iff {steps : List DatabaseStep} {step : DatabaseStep}
    (hstep : step ≠ start none) :
    OpenedLast (steps ++ [step]) ↔ OpenedLast steps ∧ step ≠ stop := by
  constructor
  · intro h
    obtain ⟨before, after, hsteps, hafter⟩ := h
    rcases List.eq_nil_or_concat after with rfl | ⟨rest, last, rfl⟩
    · -- the last step would be the one that opens
      have hlast := (List.append_inj' hsteps rfl).2
      exact absurd (List.cons.inj hlast).1 hstep
    · rw [List.concat_eq_append] at hsteps hafter
      rw [← List.cons_append, ← List.append_assoc] at hsteps
      obtain ⟨hinit, hlast⟩ := List.append_inj' hsteps rfl
      obtain rfl : step = last := (List.cons.inj hlast).1
      rw [List.mem_append, not_or, List.mem_singleton] at hafter
      exact ⟨⟨before, rest, hinit, hafter.1⟩, Ne.symm hafter.2⟩
  · intro h
    obtain ⟨⟨before, after, hsteps, hafter⟩, hstop⟩ := h
    refine ⟨before, after ++ [step], by rw [hsteps, List.append_assoc, List.cons_append], ?_⟩
    rw [List.mem_append, not_or, List.mem_singleton]
    exact ⟨hafter, Ne.symm hstop⟩

variable [JsonLibrary]

/-- The database after a step. -/
def apply (db : Database) : DatabaseStep → Database
  | start failure => ((Database.start failure).on db).2
  | stop => (Database.stop.on db).2
  | ask query answer => ((query.perform answer).on db).2

theorem options_apply (db : Database) (step : DatabaseStep) : (step.apply db).options = db.options := by
  cases step with
  | start failure => cases failure <;> rfl
  | stop => rfl
  | ask query answer => rw [apply, DatabaseQuery.on_perform_snd]

end DatabaseStep

/-! ### Whole runs -/

namespace Database

open DatabaseStep (OpenedLast)

section

variable [JsonLibrary]

/-- The database after steps. -/
def run (db : Database) (steps : List DatabaseStep) : Database :=
  steps.foldl DatabaseStep.apply db

theorem run_concat (db : Database) (steps : List DatabaseStep) (step : DatabaseStep) :
    db.run (steps ++ [step]) = step.apply (db.run steps) := by
  rw [run, List.foldl_append]
  rfl

theorem options_run (db : Database) (steps : List DatabaseStep) : (db.run steps).options = db.options := by
  induction steps using List.reverseRecOn with
  | nil => rfl
  | append_singleton steps step ih => rw [run_concat, DatabaseStep.options_apply, ih]

theorem isOpen_run_iff (options : PoolOptions) (steps : List DatabaseStep) :
    ((closed options).run steps).isOpen = true ↔ OpenedLast steps := by
  induction steps using List.reverseRecOn with
  | nil => exact iff_of_false Bool.false_ne_true DatabaseStep.not_openedLast_nil
  | append_singleton steps step ih =>
    rw [run_concat]
    by_cases hstart : step = .start none
    · rw [hstart]
      exact iff_of_true rfl (DatabaseStep.openedLast_concat_start_none steps)
    · rw [DatabaseStep.openedLast_concat_iff hstart, ← ih]
      cases step with
      | start failure =>
        cases failure with
        | none => exact absurd rfl hstart
        | some failure => simp [DatabaseStep.apply, DatabaseStep.on_start_some]
      | stop => exact iff_of_false Bool.false_ne_true (fun h => h.2 rfl)
      | ask query answer => simp [DatabaseStep.apply, DatabaseQuery.on_perform_snd]

/-- **Life of a pool.** After any steps from `closed` the pool is open exactly if a successful `start`
came after the last `stop`. A `start` succeeds exactly if the driver does not fail; a `start` that fails
leaves the database as it is, and so does every query. While the pool is closed a query gives
`replyClosed`, and while it is open `replyOpen`. -/
theorem pool_lifecycle (options : PoolOptions) (steps : List DatabaseStep) :
    let db := (closed options).run steps
    db.options = options ∧
    (db.isOpen = true ↔ OpenedLast steps) ∧
    (∀ failure, ((start failure).on db).1 = .ok () ↔ failure = none) ∧
    (∀ failure, ((start (some failure)).on db).2 = db) ∧
    (∀ query answer, ((DatabaseQuery.perform answer query).on db).2 = db) ∧
    (¬OpenedLast steps →
      ∀ query answer, ((DatabaseQuery.perform answer query).on db).1 = query.replyClosed) ∧
    (OpenedLast steps →
      ∀ query answer, ((DatabaseQuery.perform answer query).on db).1 = query.replyOpen answer) ∧
    DatabaseQuery.notStarted.code = "SERVICE_ERROR" ∧
    ∀ account id, (DatabaseQuery.listingFault account).code = "EXTERNAL_SERVICE_ERROR" ∧
      (DatabaseQuery.fetchingFault id).code = "EXTERNAL_SERVICE_ERROR" ∧
      (DatabaseQuery.resolutionFault account).code = "RESOLUTION_ERROR" := by
  intro db
  have hopen : db.isOpen = true ↔ OpenedLast steps := isOpen_run_iff options steps
  refine ⟨options_run (closed options) steps, hopen, fun failure => ?_, fun failure => rfl,
    fun query answer => DatabaseQuery.on_perform_snd db answer query, ?_, ?_, rfl,
    fun account id => ⟨rfl, rfl, rfl⟩⟩
  · cases failure with
    | none => exact iff_of_true rfl rfl
    | some failure => simp [DatabaseStep.on_start_some]
  · intro hnot query answer
    rw [← hopen, Bool.not_eq_true] at hnot
    rw [DatabaseQuery.on_perform_of_closed hnot]
  · intro hlast query answer
    rw [DatabaseQuery.on_perform_of_open (hopen.2 hlast)]

end

attribute [local instance] JsonLibrary.terse

/-- A pool that is open stays open when another `start` fails, and `stop` closes it. While it is open,
`Failure.other` ends listing as it is and resolving with `resolutionFault`. -/
theorem pool_lifecycle_restart :
    let options : PoolOptions := ⟨"postgres://db/togglr", 2, 10, "30"⟩
    let account : Uuid := ⟨7, by decide⟩
    let refused : DatabaseAnswer := ⟨some (.system "refused"), [], []⟩
    let broken : DatabaseAnswer := ⟨some (.other "broken"), [], []⟩
    let steps : List DatabaseStep :=
      [.stop, .start none, .ask .stats refused, .start (some (.database "full"))]
    let opened := (closed options).run steps
    let stopped := (closed options).run (steps ++ [.stop])
    opened.isOpen = true ∧
      ((DatabaseQuery.perform refused .stats).on opened).1 = .ok (.stats (.object [])) ∧
      ((DatabaseQuery.perform broken (.list account)).on opened).1 = .error (.other "broken") ∧
      ((DatabaseQuery.perform broken (.resolve account .empty)).on opened).1
        = .error (.fault (.unresolved "could not list toggles" [("account_id", .string account.text)])) ∧
      ((DatabaseQuery.perform broken .health).on stopped).1 = .ok (.health false) := by
  intro options account refused broken steps opened stopped
  have hopened : OpenedLast steps :=
    ⟨[.stop], [.ask .stats refused, .start (some (.database "full"))], rfl, by simp⟩
  have hstopped : ¬OpenedLast (steps ++ [.stop]) := by
    rw [DatabaseStep.openedLast_concat_iff (by simp)]
    exact fun h => h.2 rfl
  obtain ⟨-, hopen, -, -, -, -, hreply, -⟩ := pool_lifecycle options steps
  obtain ⟨-, -, -, -, -, hclosed, -⟩ := pool_lifecycle options (steps ++ [.stop])
  exact ⟨hopen.2 hopened, hreply hopened .stats refused, hreply hopened (.list account) broken,
    hreply hopened (.resolve account .empty) broken, hclosed hstopped .health broken⟩

end Database

end FeatureToggles
