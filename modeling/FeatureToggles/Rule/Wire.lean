import FeatureToggles.Expr.Wire
import FeatureToggles.Json.Writer
import FeatureToggles.Rule.Basic
import FeatureToggles.StoredJson

/-!
# Rules as JSON

A rule is stored as an object with its operator in `op` and its expression in `expression`. A list of rules
is stored as a JSON list, which may come as text, as bytes or as a JSON value; nothing at all and the
constant `null` are the empty list.
-/

namespace FeatureToggles

open Decoded (fail inside)

namespace Rule

/-- The stored form of a rule. -/
def encode (rule : Rule) : Json :=
  .object [("op", .string rule.op.text), ("expression", rule.expr.encode)]

/-- The rule of a stored form. Any operator is accepted. -/
def decode : Json → Decoded Rule
  | .object fields => do
    let op ← Operator.ofFields fields
    let expr ← Expr.decodePart .expression "expression" fields Expr.decode
    return ⟨op, expr⟩
  | _ => fail .ruleNotObject

/-- The stored form of a list of rules, as text. -/
def encodeAll (rules : List Rule) : Text :=
  Json.write (.array (rules.map encode))

/-- The rules of list items, the first of which has the given index. -/
def decodeItems (index : Nat) : List Json → Decoded (List Rule)
  | [] => .ok []
  | item :: rest => do
    let rule ← inside (.item index) (decode item)
    let rules ← decodeItems (index + 1) rest
    return rule :: rules

/-- The rules of a JSON value. -/
def decodeList : Json → Decoded (List Rule)
  | .null => .ok []
  | .array items => decodeItems 0 items
  | _ => fail .rulesNotList

end Rule

/-- What a list of rules is stored in. -/
inductive RuleSource where
  | absent
  | text (content : Text)
  | bytes (content : List UInt8)
  | value (content : Json)

namespace RuleSource

variable [JsonLibrary]

/-- The rules that a source holds. A JSON value that is a text stands for the list that this text holds. -/
def decode : RuleSource → Decoded (List Rule)
  | absent => .ok []
  | text content => StoredJson.ofText content >>= Rule.decodeList
  | bytes content => StoredJson.ofUtf8 content >>= Rule.decodeList
  | value (.string content) => StoredJson.ofText content >>= Rule.decodeList
  | value content => Rule.decodeList content

end RuleSource

end FeatureToggles
