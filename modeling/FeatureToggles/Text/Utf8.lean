import FeatureToggles.Text.Utf16

/-!
# UTF-8

Bytes from code points, and code points from bytes. A surrogate has no bytes. Each code point is written
in as few bytes as its number needs, and its number is below `110000`. A surrogate is refused, unless the
reader tolerates it.
-/

namespace FeatureToggles.Text

/-- The UTF-8 form of code points, unless there is a surrogate among them. -/
def encodeUtf8 : List CodePoint → Option (List UInt8)
  | [] => some []
  | .char c :: rest => (encodeUtf8 rest).map (String.utf8EncodeChar c ++ ·)
  | .surrogate _ :: _ => none

@[inherit_doc encodeUtf8] def utf8? (s : Text) : Option (List UInt8) :=
  encodeUtf8 s.toList

/-- What a byte within a character adds to its number, if it is one of the bytes `80` to `bf`. -/
def continuation? (b : UInt8) : Option Nat :=
  if 0x80 ≤ b.toNat ∧ b.toNat < 0xc0 then some (b.toNat - 0x80) else none

/-- The code point with the number `n` if it is one of `least` or above. Surrogates are refused unless they are
`tolerated`. -/
def charFrom? (tolerated : Bool) (least n : Nat) : Option CodePoint :=
  if n < least ∨ 0x110000 ≤ n then none
  else if n.isValidChar ∨ tolerated then some (.ofNat n) else none

/-- The code points that bytes are the UTF-8 form of. -/
def decodeUtf8 (tolerated : Bool) : List UInt8 → Option (List CodePoint)
  | [] => some []
  | a :: rest =>
    if a.toNat < 0x80 then
      (decodeUtf8 tolerated rest).map (CodePoint.ofNat a.toNat :: ·)
    else match rest with
    | [] => none
    | b :: rest =>
      (continuation? b).bind fun y =>
        if 0xc0 ≤ a.toNat ∧ a.toNat < 0xe0 then
          (charFrom? tolerated 0x80 ((a.toNat - 0xc0) * 0x40 + y)).bind fun c =>
            (decodeUtf8 tolerated rest).map (c :: ·)
        else match rest with
        | [] => none
        | b :: rest =>
          (continuation? b).bind fun z =>
            if 0xe0 ≤ a.toNat ∧ a.toNat < 0xf0 then
              (charFrom? tolerated 0x800 ((a.toNat - 0xe0) * 0x1000 + y * 0x40 + z)).bind fun c =>
                (decodeUtf8 tolerated rest).map (c :: ·)
            else match rest with
            | [] => none
            | b :: rest =>
              (continuation? b).bind fun w =>
                if 0xf0 ≤ a.toNat ∧ a.toNat < 0xf8 then
                  (charFrom? tolerated 0x10000
                    ((a.toNat - 0xf0) * 0x40000 + y * 0x1000 + z * 0x40 + w)).bind fun c =>
                    (decodeUtf8 tolerated rest).map (c :: ·)
                else none

end FeatureToggles.Text
