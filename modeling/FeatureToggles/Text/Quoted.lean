import FeatureToggles.Text.Hex
import FeatureToggles.Unicode.Printable

/-!
# Quoted text

How a message shows a text it speaks about: between single quotes, or double quotes if the text holds
single quotes only; with a backslash before the quote in use and before a backslash; and with the
characters that have no shape given by number.
-/

namespace FeatureToggles.Text

open Unicode (isPrintable)

/-- Single quotes, unless the text holds a single quote and no double quote. -/
def quoteFor (s : List CodePoint) : CodePoint :=
  if s.contains '\x27' && !s.contains '\x22' then '\x22' else '\x27'

/-- A character without a shape, in the shortest of three widths that holds its number. -/
def numbered (c : CodePoint) : List CodePoint :=
  if c.toNat < 0x100 then '\\' :: 'x' :: hexFixed 2 c.toNat
  else if c.toNat < 0x10000 then '\\' :: 'u' :: hexFixed 4 c.toNat
  else '\\' :: 'U' :: hexFixed 8 c.toNat

/-- How `c` stands between two quotes `q`. -/
def quotedChar (q c : CodePoint) : List CodePoint :=
  if c = q ∨ c = '\\' then ['\\', c]
  else if c = '\n' then ['\\', 'n']
  else if c = '\r' then ['\\', 'r']
  else if c = '\t' then ['\\', 't']
  else if isPrintable c then [c]
  else numbered c

/-- The text as a message shows it. -/
def quotedChars (s : List CodePoint) : List CodePoint :=
  quoteFor s :: s.flatMap (quotedChar (quoteFor s)) ++ [quoteFor s]

@[inherit_doc quotedChars] def quoted (s : Text) : Text :=
  ofList (quotedChars s.toList)

end FeatureToggles.Text
