import FeatureToggles.Fault
import FeatureToggles.Toggle

/-!
# The store in a database

Toggles that a database keeps, read through a pool of connections. `start` opens the pool and `stop`
closes it; while it is closed, `requireOpen` lets nothing be read.
-/

namespace FeatureToggles

/-- How a pool is opened. -/
structure PoolOptions where
  address : Text
  minSize : Int
  maxSize : Int
  /-- The seconds a command may take, as text. -/
  commandTimeout : Text
  deriving DecidableEq

/-- A toggle as a database keeps it. -/
structure ToggleRow where
  id : Uuid
  accountId : Uuid
  key : Text
  description : Option Text
  active : Bool
  rules : RuleSource
  createdAt : Moment
  updatedAt : Moment

/-- What the driver gives for a query. -/
structure DatabaseAnswer where
  /-- The failure of the query, if it fails. -/
  failure : Option Failure
  /-- The rows of toggles that are found. -/
  rows : List ToggleRow
  /-- The row of statistics. -/
  stats : List (Text × Json)

/-- A database and whether its pool is open. -/
structure Database where
  options : PoolOptions
  isOpen : Bool
  deriving DecidableEq

namespace ToggleRow

variable [JsonLibrary]

/-- The toggle of a row. -/
def toToggle (row : ToggleRow) : Decoded Toggle := do
  let rules ← row.rules.decode
  return {
    id := row.id, accountId := row.accountId, key := row.key, description := row.description.getD ""
    active := row.active, rules, createdAt := row.createdAt, updatedAt := row.updatedAt }

/-- The toggles of rows, or the failure of the first row whose rules do not decode. -/
def toToggles : List ToggleRow → Decoded (List Toggle)
  | [] => .ok []
  | row :: rest => do return (← row.toToggle) :: (← toToggles rest)

end ToggleRow

/-- An operation on a database. It gives the database after it also if it fails. -/
abbrev DatabaseM := ExceptT Failure (StateM Database)

namespace DatabaseM

variable {α β : Type}

/-- The result of an operation, and the database after it. -/
def on (work : DatabaseM α) (db : Database) : Except Failure α × Database :=
  StateT.run (ExceptT.run work) db

/-- An operation that goes on with the result of another one does not start if that one fails. -/
theorem on_bind (work : DatabaseM α) (next : α → DatabaseM β) (db : Database) :
    DatabaseM.on (work >>= next) db =
      match work.on db with
      | (.ok a, after) => (next a).on after
      | (.error failure, after) => (.error failure, after) := by
  unfold on
  rw [ExceptT.run_bind, StateT.run_bind]
  rcases (ExceptT.run work).run db with ⟨failure | a, after⟩ <;> rfl

theorem on_tryCatch (work : DatabaseM α) (handle : Failure → DatabaseM α) (db : Database) :
    DatabaseM.on (tryCatch work handle) db =
      match work.on db with
      | (.ok a, after) => (.ok a, after)
      | (.error failure, after) => (handle failure).on after := by
  unfold on
  simp only [tryCatch, tryCatchThe, MonadExceptOf.tryCatch, ExceptT.tryCatch, ExceptT.run, ExceptT.mk,
    StateT.run_bind]
  rcases StateT.run work db with ⟨failure | a, after⟩ <;> rfl

/-- With `observing` a failure becomes a result; the database after it is the same. -/
theorem on_observing (work : DatabaseM α) (db : Database) :
    DatabaseM.on (observing work) db = (.ok (work.on db).1, (work.on db).2) := by
  rw [observing, on_tryCatch, on_bind]
  rcases work.on db with ⟨failure | a, after⟩ <;> rfl

end DatabaseM

namespace Database

/-- The name under which faults of the database are reported. -/
def serviceName : Text := "postgres"

/-- A database whose pool was never opened. -/
def closed (options : PoolOptions) : Database := ⟨options, false⟩

/-- The failure that the store reports for one of the driver: a `Fault.foreign` with the given message and
details if the connection failed, and otherwise the failure of the driver itself. -/
def reported (failure : Failure) (message : Text) (details : Details) : Failure :=
  if failure.isConnection then .fault (.foreign serviceName message details) else failure

/-- Opens the pool, unless the driver fails. -/
def start (failure : Option Failure) : DatabaseM Unit :=
  match failure with
  | none => modify fun db => { db with isOpen := true }
  | some failure => throw (reported failure failure.message [])

/-- Closes the pool if it is open. -/
def stop : DatabaseM Unit :=
  modify fun db => { db with isOpen := false }

/-- Fails with `Fault.service` while the pool is closed. -/
def requireOpen : DatabaseM Unit := do
  unless (← get).isOpen do
    throw (.fault (.service "PostgreSQL toggle store is not started" []))

/-- The result of a query, or its `reported` failure. -/
def query {α : Type} (failure : Option Failure) (result : α) (message : Text) (details : Details) :
    DatabaseM α :=
  match failure with
  | none => return result
  | some failure => throw (reported failure message details)

/-- The result of decoding rows, with `Failure.ofUndecoded` of its failure. -/
def readable {α : Type} (result : Decoded α) : Except Failure α :=
  result.mapError .ofUndecoded

variable [JsonLibrary]

/-- The toggles of an account, as the driver selects them. -/
def list (answer : DatabaseAnswer) (account : Uuid) : DatabaseM (List Toggle) := do
  requireOpen
  let rows ← query answer.failure answer.rows "could not list toggles"
    [("account_id", .string account.text)]
  readable (ToggleRow.toToggles rows)

/-- The toggle with an identifier: that of the first row. -/
def fetch? (answer : DatabaseAnswer) (id : Uuid) : DatabaseM (Option Toggle) := do
  requireOpen
  let row ← query answer.failure answer.rows.head? "could not fetch toggle"
    [("toggle_id", .string id.text)]
  readable (row.mapM (·.toToggle))

/-- Statistics. They are empty if the connection fails. -/
def stats (answer : DatabaseAnswer) : DatabaseM Json := do
  requireOpen
  match answer.failure with
  | none => return .object answer.stats
  | some failure => if failure.isConnection then return .object [] else throw failure

/-- Whether the pool is open and the connection does not fail. -/
def health (answer : DatabaseAnswer) : DatabaseM Bool := do
  if (← get).isOpen then
    match answer.failure with
    | none => return true
    | some failure => if failure.isConnection then return false else throw failure
  else return false

end Database

end FeatureToggles
