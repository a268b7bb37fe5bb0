import FeatureToggles.Json.Basic

/-!
# JSON text from values

The text of a JSON value: a comma or a colon is followed by one space, texts hold printable ASCII only,
and every other character is escaped by its UTF-16 units.
-/

namespace FeatureToggles.Json

open CodePoint (char)

open Decimal (intText floatText Layout)
open Text (hexFixed)

/-- A UTF-16 unit as an escape. -/
def unitEscape (unit : Nat) : List CodePoint :=
  '\\' :: 'u' :: hexFixed 4 unit

/-- A character within a string. -/
def charText (c : CodePoint) : List CodePoint :=
  if c = '\x22' ∨ c = '\\' then ['\\', c]
  else if c = '\n' then ['\\', 'n']
  else if c = '\r' then ['\\', 'r']
  else if c = '\t' then ['\\', 't']
  else if c = '\x08' then ['\\', 'b']
  else if c = '\x0c' then ['\\', 'f']
  else if c.toNat < 0x20 then unitEscape c.toNat
  else if c.toNat < 0x7f then [c]
  else if c.toNat < 0x10000 then unitEscape c.toNat
  else
    unitEscape (0xd800 + (c.toNat - 0x10000) / 0x400) ++
      unitEscape (0xdc00 + (c.toNat - 0x10000) % 0x400)

/-- A string with its quotes. -/
def stringText (s : Text) : List CodePoint :=
  char '\x22' :: (s.toList.flatMap charText ++ [char '\x22'])

mutual

/-- The text of a value. -/
def textChars : Json → List CodePoint
  | null => ("null" : Text).toList
  | bool true => ("true" : Text).toList
  | bool false => ("false" : Text).toList
  | int n => intText n
  | float x => floatText Layout.json x
  | string s => stringText s
  | array items => char '[' :: (itemsText items ++ [char ']'])
  | object fields => char '\x7b' :: (fieldsText fields ++ [char '\x7d'])

@[inherit_doc textChars] def itemsText : List Json → List CodePoint
  | [] => []
  | [item] => textChars item
  | item :: rest => textChars item ++ char ',' :: char ' ' :: itemsText rest

@[inherit_doc textChars] def fieldsText : List (Text × Json) → List CodePoint
  | [] => []
  | [(name, value)] => stringText name ++ char ':' :: char ' ' :: textChars value
  | (name, value) :: rest =>
    stringText name ++ char ':' :: char ' ' :: (textChars value ++ char ',' :: char ' ' :: fieldsText rest)

end

/-- The text of a value. -/
def write (value : Json) : Text :=
  Text.ofList value.textChars

end FeatureToggles.Json
