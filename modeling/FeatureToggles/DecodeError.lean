import FeatureToggles.Json.Shown

/-!
# Decoding errors

A `DecodeError` says why stored data holds no expression or rule, and at which path. The message about an
unknown tag shows this tag; where it cannot be shown, decoding fails with `Undecoded.unshowable` instead
of the error.
-/

namespace FeatureToggles

/-- The kinds of nodes without parts, as stored data names them. -/
inductive Leaf where
  | string
  | int
  | float
  | bool
  | ident
  deriving DecidableEq

namespace Leaf

/-- The name of a kind of leaves. -/
def name : Leaf → Text
  | string => "string"
  | int => "int"
  | float => "float"
  | bool => "bool"
  | ident => "ident"

end Leaf

/-- The kinds of expression nodes, as stored data names them. -/
inductive Tag where
  | leaf (kind : Leaf)
  | binary
  | unary
  deriving DecidableEq

namespace Tag

/-- All kinds of nodes. -/
def all : List Tag :=
  [leaf .string, leaf .int, leaf .float, leaf .bool, leaf .ident, binary, unary]

/-- The name of a kind of nodes. -/
def name : Tag → Text
  | leaf kind => kind.name
  | binary => "binary"
  | unary => "unary"

/-- The kind of nodes with a name. -/
def ofName? (s : Text) : Option Tag :=
  all.find? (·.name = s)

/-- The kind of nodes that a JSON value names. -/
def ofJson? : Json → Option Tag
  | .string s => ofName? s
  | _ => none

theorem ofName?_name (tag : Tag) : ofName? tag.name = some tag := by
  rcases tag with kind | _ | _
  · cases kind <;> decide
  · decide
  · decide

theorem name_of_ofName? {s : Text} {tag : Tag} (h : ofName? s = some tag) : tag.name = s := by
  simpa using List.find?_some h

end Tag

/-- A step from a node of stored data to a part of it. -/
inductive PathStep where
  | left
  | right
  | operand
  | expression
  | item (index : Nat)
  deriving DecidableEq

namespace PathStep

/-- How a step is written. -/
def text : PathStep → Text
  | left => ".left"
  | right => ".right"
  | operand => ".expr"
  | expression => ".expression"
  | item index => "[" ++ Text.ofList (Decimal.natText index) ++ "]"

end PathStep

/-- A path from the root, which is written `$`. -/
def pathText (path : List PathStep) : Text :=
  path.foldl (fun text step => text ++ step.text) "$"

/-- What is wrong with a node of stored data. -/
inductive DecodeFault where
  | tooDeep
  | notObject
  | noTag
  | unknownTag (tag : Json)
  | missingField (name : Text)
  | wrongValue (kind : Leaf)
  | outOfRange
  | operatorNotText
  | ruleNotObject
  | rulesNotList
  | malformedJson (wording : Text)
  | undecodableBytes (wording : Text)
  | jsonTooDeep
  /-- A defect whose message comes from elsewhere. -/
  | other (wording : Text)

namespace DecodeFault

/-- The message about a leaf with a wrong value. -/
def due : Leaf → Text
  | .string => "string value must be a string"
  | .int => "int value must be an integer"
  | .float => "float value must be a number"
  | .bool => "bool value must be a boolean"
  | .ident => "ident value must be a string"

/-- The message about a defect, without its path. -/
def message : DecodeFault → Text
  | tooDeep => "expression is nested too deeply"
  | notObject => "expression must be an object"
  | noTag => "expression is missing its type"
  | unknownTag tag => "unknown expression type " ++ tag.shown
  | missingField name => "missing field " ++ Text.quoted name
  | wrongValue kind => due kind
  | outOfRange => "float value out of range"
  | operatorNotText => "op must be a string"
  | ruleNotObject => "rule must be an object"
  | rulesNotList => "rules must be a list"
  | malformedJson wording => "invalid JSON: " ++ wording
  | undecodableBytes wording => "invalid UTF-8: " ++ wording
  | jsonTooDeep => "JSON is nested too deeply"
  | other wording => wording

/-- Whether there is a message: a tag that it shows has to be `Json.isShowable`. -/
def isShowable : DecodeFault → Bool
  | unknownTag tag => tag.isShowable
  | _ => true

/-- Only `unknownTag` may have no message. -/
theorem exists_unknownTag {fault : DecodeFault} (h : fault.isShowable = false) :
    ∃ tag, fault = unknownTag tag ∧ tag.isShowable = false := by
  cases fault with
  | unknownTag tag => exact ⟨tag, rfl, h⟩
  | _ => cases h

end DecodeFault

/-- A fault and the path to the node that has it. -/
structure DecodeError where
  fault : DecodeFault
  path : List PathStep

namespace DecodeError

/-- The error with a step in front of its path. -/
def under (step : PathStep) (e : DecodeError) : DecodeError :=
  { e with path := step :: e.path }

/-- The message of an error: the defect and the path. -/
def message (e : DecodeError) : Text :=
  e.fault.message ++ " at " ++ pathText e.path

end DecodeError

/-- How decoding fails. -/
inductive Undecoded where
  /-- With an error. -/
  | defect (error : DecodeError)
  /-- Without an error, because its message would show an integer of more than `Decimal.maxIntegerDigits`
  digits. This failure has no path. -/
  | unshowable

namespace Undecoded

/-- The failure with an error, or `unshowable` if the error has no message. -/
def ofError (e : DecodeError) : Undecoded :=
  if e.fault.isShowable then defect e else unshowable

/-- The failure with a step in front of the path of its error. -/
def under (step : PathStep) : Undecoded → Undecoded
  | defect e => defect (e.under step)
  | unshowable => unshowable

theorem under_ofError (step : PathStep) (e : DecodeError) :
    (ofError e).under step = ofError (e.under step) := by
  unfold ofError
  cases h : e.fault.isShowable <;> simp [DecodeError.under, under, h]

theorem ofError_eq_defect_iff {e error : DecodeError} :
    ofError e = defect error ↔ e = error ∧ error.fault.isShowable = true := by
  unfold ofError
  cases h : e.fault.isShowable with
  | true =>
    rw [if_pos rfl, defect.injEq]
    exact ⟨fun he => ⟨he, he ▸ h⟩, fun he => he.1⟩
  | false =>
    refine iff_of_false (by simp) fun he => ?_
    rw [he.1, he.2] at h
    cases h

theorem ofError_eq_unshowable_iff {e : DecodeError} :
    ofError e = unshowable ↔ e.fault.isShowable = false := by
  unfold ofError
  split <;> simp_all

end Undecoded

/-- The result of decoding. -/
abbrev Decoded (α : Type) := Except Undecoded α

namespace Decoded

/-- Fails with a defect of the node itself. -/
def fail {α : Type} (fault : DecodeFault) : Decoded α :=
  .error (.ofError ⟨fault, []⟩)

/-- Fails with a defect of the node itself if there is no value. -/
def ofOption {α : Type} (fault : DecodeFault) : Option α → Decoded α
  | some a => .ok a
  | none => fail fault

/-- Puts a step in front of the path of an error. -/
def inside {α : Type} (step : PathStep) (part : Decoded α) : Decoded α :=
  part.mapError (·.under step)

end Decoded

end FeatureToggles
