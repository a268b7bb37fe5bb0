import FeatureToggles.Fault
import FeatureToggles.Text.Utf8

/-!
# Requests and answers

The requests that the service gets over HTTP, and its answers.
-/

namespace FeatureToggles

/-- A request over HTTP. -/
structure Request where
  method : String
  path : String
  headers : List (String × String)
  body : List UInt8

/-- The identifier that ties an answer to its request. -/
inductive Correlation where
  /-- The one that the request came with. -/
  | given (id : String)
  /-- A new one, for a request that came without. -/
  | fresh
  deriving DecidableEq

namespace Request

/-- The name of the header that holds a request's identifier. -/
def correlationHeader : String := "x-request-id"

/-- The value of a header. The case of letters in its name, here given in lower case, makes no difference. -/
def header? (request : Request) (name : String) : Option String :=
  (request.headers.find? (·.1.toLower = name)).map (·.2)

/-- The identifier that the answer to a request carries. -/
def correlation (request : Request) : Correlation :=
  match request.header? correlationHeader with
  | some id => .given id
  | none => .fresh

/-- A character of a path as it is counted. What would end the path is escaped, and so is a backslash, which
may be taken for a slash; line breaks and tabulators are left out. -/
def countedChar : Char → List Char
  | '?' => ['%', '3', 'F']
  | '#' => ['%', '2', '3']
  | '\\' => ['%', '5', 'C']
  | '\t' => []
  | '\r' => []
  | '\n' => []
  | c => [c]

/-- The path as it is counted. It starts with a slash, even if the request's does not. -/
def endpoint (request : Request) : String :=
  let path := request.path.toList
  let rooted := if path.head? = some '/' then path else '/' :: path
  String.ofList (rooted.flatMap countedChar)

end Request

namespace Json

/-- Whether an answer can hold a value without parts: an integer if it is short, any other number if it is
finite, and a text if it has bytes. -/
def isSendable : Json → Bool
  | int n => (int n).isShort
  | float x => x.isFinite
  | string s => s.utf8?.isSome
  | _ => true

/-- Whether an answer can hold the value. -/
def isWritable (value : Json) : Bool :=
  value.everywhere isSendable

end Json

/-- An answer over HTTP. Only JSON bodies are kept: pages, redirections, the text of metrics and the list
of a request's defects have none. -/
structure Response where
  status : Int
  body : Option Json
  correlation : Option Correlation

/-- How handling a request ends. -/
inductive Outcome where
  | answer (status : Int) (body : Option Json)
  | fault (cause : Fault)
  /-- With a failure that no handler turns into an answer. -/
  | crash

namespace Outcome

/-- An answer with status 200. -/
def ok (body : Json) : Outcome := .answer 200 (some body)

/-- An answer whose body has one field, `detail`. -/
def detail (status : Int) (text : Text) : Outcome :=
  .answer status (some (.object [("detail", .string text)]))

/-- The answer to a body that has not the form of the route. It quotes the part that does not fit, so it
is a `crash` unless this part is `Json.isWritable`. -/
def misfit (part : Json) : Outcome :=
  if part.isWritable then .answer 422 none else .crash

/-- The outcome of a failure: a `Fault` is answered, and any other failure is a `crash`. -/
def ofFailure : Failure → Outcome
  | .fault cause => .fault cause
  | _ => .crash

/-- The outcome after its body was written. It is a `crash` unless the body is `Json.isWritable`. -/
def written : Outcome → Outcome
  | .answer status (some body) => if body.isWritable then .answer status (some body) else .crash
  | .fault cause => if cause.toJson.isWritable then .fault cause else .crash
  | outcome => outcome

end Outcome

end FeatureToggles
