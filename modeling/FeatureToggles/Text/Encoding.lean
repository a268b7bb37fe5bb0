import FeatureToggles.Text.Utf8

/-!
# Encodings

The encodings in which JSON is sent, and how the bytes of a text tell which one they are in: by a byte
order mark, or else by where the zero bytes stand among the first four, as the first character of a JSON
text is ASCII.
-/

namespace FeatureToggles.Text

/-- An encoding of text. -/
inductive Encoding where
  | utf8
  | utf16 (bigEndian : Bool)
  | utf32 (bigEndian : Bool)
  deriving DecidableEq

/-- The 16-bit units of bytes. -/
def pairs? (bigEndian : Bool) : List UInt8 → Option (List Nat)
  | [] => some []
  | [_] => none
  | a :: b :: rest =>
    (pairs? bigEndian rest).map fun units =>
      (if bigEndian then a.toNat * 0x100 + b.toNat else b.toNat * 0x100 + a.toNat) :: units

/-- The 32-bit units of bytes. -/
def quadruples? (bigEndian : Bool) (bytes : List UInt8) : Option (List Nat) :=
  (pairs? bigEndian bytes).bind join
where
  join : List Nat → Option (List Nat)
    | [] => some []
    | [_] => none
    | a :: b :: rest =>
      (join rest).map fun units =>
        (if bigEndian then a * 0x10000 + b else b * 0x10000 + a) :: units

namespace Encoding

/-- The code points that bytes stand for in an encoding. Surrogates are tolerated. -/
def decode : Encoding → List UInt8 → Option (List CodePoint)
  | utf8, bytes => decodeUtf8 true bytes
  | utf16 bigEndian, bytes => (pairs? bigEndian bytes).map ofUnits
  | utf32 bigEndian, bytes =>
    (quadruples? bigEndian bytes).bind fun units => units.mapM (charFrom? true 0)

/-- The encoding of bytes without a byte order mark. -/
def ofZeros : List UInt8 → Encoding
  | [a, b] => if a = 0 then utf16 true else if b = 0 then utf16 false else utf8
  | a :: b :: c :: d :: _ =>
    if a = 0 then (if b = 0 then utf32 true else utf16 true)
    else if b = 0 then (if c = 0 ∧ d = 0 then utf32 false else utf16 false)
    else utf8
  | _ => utf8

/-- The encoding that bytes show, and the bytes after a byte order mark. -/
def detect : List UInt8 → Encoding × List UInt8
  | 0x00 :: 0x00 :: 0xfe :: 0xff :: rest => (utf32 true, rest)
  | 0xff :: 0xfe :: 0x00 :: 0x00 :: rest => (utf32 false, rest)
  | 0xfe :: 0xff :: rest => (utf16 true, rest)
  | 0xff :: 0xfe :: rest => (utf16 false, rest)
  | 0xef :: 0xbb :: 0xbf :: rest => (utf8, rest)
  | bytes => (ofZeros bytes, bytes)

end Encoding

/-- The text of bytes in the encoding that they show. -/
def decodeDetected (bytes : List UInt8) : Option (List CodePoint) :=
  (Encoding.detect bytes).1.decode (Encoding.detect bytes).2

end FeatureToggles.Text
