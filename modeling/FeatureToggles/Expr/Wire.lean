import FeatureToggles.DecodeError
import FeatureToggles.Expr.Basic

/-!
# Expressions as JSON

An expression is stored as an object whose field `type` names the kind of the node. A literal or a name
has a field `value`; a node with operands has its operator in `op` and the operands in `left` and `right`,
or in `expr`. Operators are not checked: one that is not known keeps its spelling.
-/

namespace FeatureToggles

open Decoded (fail ofOption inside)

/-- The value of a field that has to be there. -/
def requiredField (name : Text) (fields : List (Text × Json)) : Decoded Json :=
  ofOption (.missingField name) (Json.fieldOf? name fields)

namespace Operator

variable {κ : Type} [Spelled κ]

/-- The operator in the field `op`. -/
def ofFields (fields : List (Text × Json)) : Decoded (Operator κ) := do
  match ← requiredField "op" fields with
  | .string text => return ofText text
  | _ => fail .operatorNotText

end Operator

namespace Literal

/-- The kind of leaf that a literal is. -/
def kind : Literal → Leaf
  | string _ => .string
  | int _ => .int
  | float _ => .float
  | bool _ => .bool

/-- The bare value of a literal. -/
def toJson : Literal → Json
  | string s => .string s
  | int n => .int n
  | float x => .float x
  | bool b => .bool b

end Literal

namespace Expr

/-- The stored form of an expression. -/
def encode : Expr → Json
  | literal value => .object [("type", .string value.kind.name), ("value", value.toJson)]
  | ident name => .object [("type", .string Leaf.ident.name), ("value", .string name)]
  | binary op left right =>
    .object [("type", .string Tag.binary.name), ("op", .string op.text), ("left", left.encode),
      ("right", right.encode)]
  | unary op operand =>
    .object [("type", .string Tag.unary.name), ("op", .string op.text), ("expr", operand.encode)]

/-- The leaf of the given kind with the given value. An integer serves as a binary64 number if the nearest
one is finite; a truth value never serves as a number. -/
def decodeLeaf (kind : Leaf) (value : Json) : Decoded Expr :=
  match kind, value with
  | .string, .string s => .ok (literal (.string s))
  | .int, .int n => .ok (literal (.int n))
  | .float, .float x => .ok (literal (.float x))
  | .float, .int n => do
    let x ← ofOption .outOfRange (Binary64.ofInt? n)
    return literal (.float x)
  | .bool, .bool b => .ok (literal (.bool b))
  | .ident, .string s => .ok (ident s)
  | kind, _ => fail (.wrongValue kind)

/-- Decodes a part of a node that stands in a field. -/
def decodePart (step : PathStep) (name : Text) (fields : List (Text × Json))
    (decode : Json → Decoded Expr) : Decoded Expr := do
  let part ← requiredField name fields
  inside step (decode part)

/-- The expression of a stored form with at most `levels` levels. The tag is read first, then the fields
from left to right. -/
def decodeLevels : (levels : Nat) → Json → Decoded Expr
  | 0, _ => fail .tooDeep
  | levels + 1, .object fields =>
    match Json.fieldOf? "type" fields with
    | none => fail .noTag
    | some tagValue =>
      match Tag.ofJson? tagValue with
      | none => fail (.unknownTag tagValue)
      | some .binary => do
        let op ← Operator.ofFields fields
        let left ← decodePart .left "left" fields (decodeLevels levels)
        let right ← decodePart .right "right" fields (decodeLevels levels)
        return binary op left right
      | some .unary => do
        let op ← Operator.ofFields fields
        let operand ← decodePart .operand "expr" fields (decodeLevels levels)
        return unary op operand
      | some (.leaf kind) => do
        let value ← requiredField "value" fields
        decodeLeaf kind value
  | _ + 1, _ => fail .notObject

/-- The expression of a stored form. -/
def decode (value : Json) : Decoded Expr :=
  decodeLevels maxDepth value

end Expr

end FeatureToggles
