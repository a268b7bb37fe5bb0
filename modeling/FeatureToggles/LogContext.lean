import FeatureToggles.Json.Basic

/-!
# Correlation of log events

Log events are tied to the service that wrote them, to the request that was served and to the account that
it was about.
-/

namespace FeatureToggles

/-- What log events are about at the moment. -/
structure LogContext where
  requestId : Option Text
  accountId : Option Text
  deriving DecidableEq

namespace LogContext

/-- Events that are about nothing in particular. -/
def empty : LogContext := ⟨none, none⟩

/-- From now on events are about a request. -/
def withRequest (context : LogContext) (id : Text) : LogContext :=
  { context with requestId := some id }

/-- From now on events are about an account. An empty name is none. -/
def withAccount (context : LogContext) (id : Option Text) : LogContext :=
  match id with
  | some id => if id.isEmpty then context else { context with accountId := some id }
  | none => context

/-- The service of a logger: what stands before the first point of its name. -/
def serviceOf? (logger : Text) : Option Text :=
  if logger.toList.contains '.' then some (Text.ofList (logger.toList.takeWhile (· ≠ '.'))) else none

/-- Sets a field to a text, unless there is none or it is empty. -/
def labelled (name : Text) (value : Option Text) (event : List (Text × Json)) :
    List (Text × Json) :=
  match value with
  | some text => if text.isEmpty then event else Json.withField name (.string text) event
  | none => event

/-- Names the service whose logger wrote an event. -/
def withService (event : List (Text × Json)) : List (Text × Json) :=
  match ((Json.fieldOf? "logger" event).bind Json.text?).bind serviceOf? with
  | some service => Json.withField "service" (.string service) event
  | none => event

/-- An event with everything that it is about. -/
def enrich (context : LogContext) (event : List (Text × Json)) : List (Text × Json) :=
  labelled "account_id" context.accountId (labelled "request_id" context.requestId (withService event))

end LogContext

end FeatureToggles
