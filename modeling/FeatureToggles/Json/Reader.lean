import FeatureToggles.Json.Library
import FeatureToggles.Json.Token

/-!
# JSON values from text

A value is read token by token. What is open at any moment is a stack of containers, the innermost first,
and a state says what may come next.
-/

namespace FeatureToggles.Json

open JsonLibrary (maxNesting)

variable [JsonLibrary]

/-- A container of which a part is being read. -/
inductive Frame where
  /-- An array, with the items read so far, the last one first. -/
  | array (items : List Json)
  /-- An object, with the fields read so far and the name of the one being read. -/
  | object (fields : List (Text × Json)) (name : Text)

/-- What has just been read, and so what may come next. -/
inductive State where
  /-- A value is due. -/
  | value
  /-- An array has just been opened. -/
  | opened
  /-- The name of a field is due, after these fields. -/
  | name (fields : List (Text × Json))
  /-- An object has just been opened. -/
  | openedObject
  /-- The colon after the name of a field is due. -/
  | colon (fields : List (Text × Json)) (name : Text)
  /-- A value is complete. -/
  | complete (value : Json)

/-- Starts a value with a token. -/
def start (stack : List Frame) : Token → Except ReadError (State × List Frame)
  | .scalar value => .ok (.complete value, stack)
  | .string s => .ok (.complete (.string s), stack)
  | .openArray =>
    if stack.length < maxNesting then .ok (.opened, .array [] :: stack) else .error .tooDeep
  | .openObject =>
    if stack.length < maxNesting then .ok (.openedObject, stack) else .error .tooDeep
  | .unreadable reason => .error reason
  | _ => .error .malformed

/-- Takes one token. -/
def step : State → List Frame → Token → Except ReadError (State × List Frame)
  | .value, stack, token => start stack token
  | .opened, _ :: stack, .closeArray => .ok (.complete (.array []), stack)
  | .opened, stack, token => start stack token
  | .openedObject, stack, .closeObject => .ok (.complete (.object []), stack)
  | .openedObject, stack, .string name => .ok (.colon [] name, stack)
  | .name fields, stack, .string name => .ok (.colon fields name, stack)
  | .colon fields name, stack, .colon => .ok (.value, .object fields name :: stack)
  | .complete value, .array items :: stack, .comma => .ok (.value, .array (value :: items) :: stack)
  | .complete value, .array items :: stack, .closeArray =>
    .ok (.complete (.array (value :: items).reverse), stack)
  | .complete value, .object fields name :: stack, .comma =>
    .ok (.name (withField name value fields), stack)
  | .complete value, .object fields name :: stack, .closeObject =>
    .ok (.complete (.object (withField name value fields)), stack)
  | _, _, _ => .error .malformed

/-- Takes all tokens; at their end one value has to be complete and nothing open. -/
def run : State → List Frame → List Token → Except ReadError Json
  | .complete value, [], [] => .ok value
  | _, _, [] => .error .malformed
  | state, stack, token :: rest =>
    match step state stack token with
    | .ok (state, stack) => run state stack rest
    | .error e => .error e

/-- The value that a text holds. -/
def readChars (cs : List CodePoint) : Except ReadError Json :=
  run .value [] (tokens cs)

@[inherit_doc readChars] def read (text : Text) : Except ReadError Json :=
  readChars text.toList

end FeatureToggles.Json
