import FeatureToggles.Database
import FeatureToggles.Resolution
import FeatureToggles.Service.Message
import FeatureToggles.Settings.Basic

/-!
# The service

The state of a service, and what it gets from its store.
-/

namespace FeatureToggles

/-- Where toggles are kept. -/
inductive Backend where
  | memory (store : Store)
  | database (db : Database)

/-- The state of a service. -/
structure Service where
  metrics : Metrics
  backend : Backend
  /-- Whether the service runs where it is developed, and so describes itself on pages. -/
  isLocal : Bool
  /-- The version of the source that the service was built from. -/
  commit : Text

/-- What a request depends on besides the service. -/
structure Surroundings where
  /-- The failure of listing toggles, if it fails, whatever the backend is. -/
  listing : Option Failure
  /-- The message of a failing check of the store, if it fails. -/
  check : Option Text
  database : DatabaseAnswer
  /-- The seconds that a resolution takes. -/
  resolutionTime : Binary64
  /-- The seconds that a request takes. -/
  requestTime : Binary64

namespace Service

variable [JsonLibrary]

/-- The name of the variable that holds the version of the source. -/
def commitVariable : Text := "GIT_COMMIT"

/-- A service with the given settings and store, before its first request. -/
def new (settings : Settings) (environment : Environment) (backend : Backend) : Service where
  metrics := .forService settings.serviceName
  backend
  isLocal := settings.env = "local"
  commit := ((environment.find? (·.1 = commitVariable)).map (·.2)).getD "unknown"

/-- The store that settings ask for. -/
def backendOf (settings : Settings) : Backend :=
  if settings.usesDatabase then .database (.closed settings.poolOptions) else .memory .empty

/-- Adds a toggle to a store in memory. -/
def addToggle (service : Service) (toggle : Toggle) : Service :=
  match service.backend with
  | .memory store => { service with backend := .memory (store.add toggle) }
  | .database _ => service

/-- Runs an operation on the store, if it is a database. -/
def onDatabase (service : Service) (work : DatabaseM Unit) : Except Failure Unit × Service :=
  match service.backend with
  | .memory _ => (.ok (), service)
  | .database db =>
    let (result, db) := work.on db
    (result, { service with backend := .database db })

/-- Opens the store. A store in memory is always open. -/
def start (service : Service) (failure : Option Failure) : Except Failure Unit × Service :=
  service.onDatabase (Database.start failure)

/-- Closes the store. -/
def stop (service : Service) : Service :=
  (service.onDatabase Database.stop).2

/-- The toggles of an account, or the failure of listing them. -/
def listing (service : Service) (surroundings : Surroundings) (account : Uuid) :
    Except Failure (List Toggle) :=
  match surroundings.listing with
  | some failure => .error failure
  | none =>
    match service.backend with
    | .memory store => .ok (store.list account)
    | .database db => ((Database.list surroundings.database account).on db).1

/-- The statistics of the store. -/
def stats (service : Service) (surroundings : Surroundings) : Except Failure Json :=
  match service.backend with
  | .memory store => .ok store.stats.toJson
  | .database db => ((Database.stats surroundings.database).on db).1

/-- Whether the store is usable. -/
def storeHealth (service : Service) (surroundings : Surroundings) : Except Failure Bool :=
  match surroundings.check with
  | some message => .error (.other message)
  | none =>
    match service.backend with
    | .memory _ => .ok true
    | .database db => ((Database.health surroundings.database).on db).1

end Service

end FeatureToggles
