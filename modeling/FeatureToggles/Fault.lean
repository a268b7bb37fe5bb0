import FeatureToggles.DecodeError
import FeatureToggles.RuleText.Token
import FeatureToggles.Rule.Basic

/-!
# Faults and failures

A `Fault` is an error that the service reports: a code, a message, details and an HTTP status. A `Failure`
ends a step without a result: it is a fault, or an error of the database, of the operating system or of
anything else.
-/

namespace FeatureToggles

/-- Details of a fault by name. -/
abbrev Details := List (Text × Json)

/-- An error that the service reports. -/
inductive Fault where
  /-- A rule text that holds no expression. -/
  | badText (text : Text) (error : RuleText.Error)
  /-- A rule that is joined by an operator that does not join truth values. -/
  | badOperator (text : Text)
  /-- Input that is not valid for another reason. -/
  | invalid (message : Text) (details : Details)
  /-- Stored data that holds no rules or expression. -/
  | undecodable (error : DecodeError)
  /-- Stored data that is malformed for another reason. -/
  | unreadable (message : Text) (details : Details)
  /-- A resolution that failed as a whole. -/
  | unresolved (message : Text) (details : Details)
  /-- A service that is not in a state to answer. -/
  | service (message : Text) (details : Details)
  /-- Another service that failed. -/
  | foreign (name message : Text) (details : Details)
  /-- Any other error, with a code of its own. -/
  | custom (code message : Text) (details : Details) (status : Option Int)

namespace Fault

/-- The code of a fault. -/
def code : Fault → Text
  | badText .. => "VALIDATION_ERROR"
  | badOperator .. => "VALIDATION_ERROR"
  | invalid .. => "VALIDATION_ERROR"
  | undecodable .. => "DECODE_ERROR"
  | unreadable .. => "DECODE_ERROR"
  | unresolved .. => "RESOLUTION_ERROR"
  | service .. => "SERVICE_ERROR"
  | foreign .. => "EXTERNAL_SERVICE_ERROR"
  | custom code .. => code

/-- The message of a fault. -/
def message : Fault → Text
  | badText _ error => error.message
  | badOperator _ => "A rule op can only be logical (&& ||)"
  | invalid message _ => message
  | undecodable error => error.message
  | unreadable message _ => message
  | unresolved message _ => message
  | service message _ => message
  | foreign name message _ => name ++ ": " ++ message
  | custom _ message _ _ => message

/-- The details of a fault. -/
def details : Fault → Details
  | badText text error => [("position", .int error.position), ("expression", .string text)]
  | badOperator text => [("op", .string text)]
  | invalid _ details => details
  | undecodable error => [("path", .string (pathText error.path))]
  | unreadable _ details => details
  | unresolved _ details => details
  | service _ details => details
  | foreign _ _ details => details
  | custom _ _ details _ => details

/-- The HTTP status of the answer to a fault. -/
def status : Fault → Int
  | badText .. => 400
  | badOperator .. => 400
  | invalid .. => 400
  | undecodable .. => 400
  | unreadable .. => 400
  | unresolved .. => 500
  | service .. => 500
  | foreign .. => 502
  | custom _ _ _ status => status.getD 400

/-- The body of the answer to a fault. -/
def toJson (fault : Fault) : Json :=
  .object [("code", .string fault.code), ("message", .string fault.message),
    ("details", .object fault.details)]

end Fault

/-- What ends a step without a result. -/
inductive Failure where
  | fault (cause : Fault)
  /-- The database refused a query. -/
  | database (cause : Text)
  /-- The operating system refused a call. -/
  | system (cause : Text)
  /-- An error of any other kind. -/
  | other (cause : Text)

namespace Failure

/-- The message of a failure. -/
def message : Failure → Text
  | fault cause => cause.message
  | database cause => cause
  | system cause => cause
  | other cause => cause

/-- The failure of data that is not decoded: a `Fault.undecodable` for `Undecoded.defect`, and no fault
for `Undecoded.unshowable`. -/
def ofUndecoded : Undecoded → Failure
  | .defect error => fault (.undecodable error)
  | .unshowable => other "Exceeds the limit (4300 digits) for integer string conversion"

/-- Whether the failure is one of the connection to a database. -/
def isConnection : Failure → Bool
  | database _ => true
  | system _ => true
  | _ => false

end Failure

/-- Refuses a rule that is not joined by a logical operator. -/
def Rule.validate (rule : Rule) : Except Fault Unit :=
  if rule.isLogical then .ok () else .error (.badOperator rule.op.text)

end FeatureToggles
