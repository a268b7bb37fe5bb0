import FeatureToggles.Decimal.Numeral
import FeatureToggles.Json.Basic

/-!
# JSON values within messages

How a message shows a JSON value that it complains about: texts quoted, lists and objects in brackets with
their parts separated by a comma and a space, and the three constants by name. An integer of more than
`Decimal.maxIntegerDigits` digits cannot be shown, and neither can what holds one.
-/

namespace FeatureToggles.Json

open CodePoint (char)

open Decimal (intText floatText Layout maxIntegerDigits)
open Text (quotedChars)

/-- Whether an integer is short enough to be written; other values without parts always are. -/
def isShort : Json → Bool
  | int n => (Decimal.digits n.natAbs).length ≤ maxIntegerDigits
  | _ => true

/-- Whether a message can show the value. -/
def isShowable (value : Json) : Bool :=
  value.everywhere isShort

mutual

/-- The value as a message shows it. -/
def shownChars : Json → List CodePoint
  | null => ("None" : Text).toList
  | bool true => ("True" : Text).toList
  | bool false => ("False" : Text).toList
  | int n => intText n
  | float x => floatText Layout.plain x
  | string s => quotedChars s.toList
  | array items => char '[' :: (shownItems items ++ [char ']'])
  | object fields => char '\x7b' :: (shownFields fields ++ [char '\x7d'])

@[inherit_doc shownChars] def shownItems : List Json → List CodePoint
  | [] => []
  | [item] => shownChars item
  | item :: rest => shownChars item ++ char ',' :: char ' ' :: shownItems rest

@[inherit_doc shownChars] def shownFields : List (Text × Json) → List CodePoint
  | [] => []
  | [(name, value)] => quotedChars name.toList ++ char ':' :: char ' ' :: shownChars value
  | (name, value) :: rest =>
    quotedChars name.toList ++ char ':' :: char ' '
      :: (shownChars value ++ char ',' :: char ' ' :: shownFields rest)

end

/-- The value as a message shows it. -/
def shown (value : Json) : Text :=
  Text.ofList value.shownChars

end FeatureToggles.Json
