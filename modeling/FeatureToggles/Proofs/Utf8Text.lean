import FeatureToggles.Proofs.StringText
import FeatureToggles.Text.Encoding

/-!
# Texts as bytes

The bytes that a text has in UTF-8 are decoded to this text, whether surrogates are tolerated or not:
they hold none. A text without the character zero that does not start with a byte order mark shows that it
is UTF-8.
-/

namespace FeatureToggles.Text

open CodePoint (char)

theorem toNat_pos {c : Char} (h : c ≠ '\x00') : 0 < c.toNat := by
  rw [Nat.pos_iff_ne_zero]
  exact fun hzero => h (Char.toNat_inj.1 hzero)

theorem toNat_ofNat {n : Nat} (h : n < 0x100) : (UInt8.ofNat n).toNat = n :=
  UInt8.toNat_ofNat_of_lt' h

/-- A byte within a character gives back the six bits that it was made from. -/
theorem continuation?_ofNat {n : Nat} (h : n < 0x40) : continuation? (UInt8.ofNat (n + 0x80)) = some n := by
  have hbyte : (UInt8.ofNat (n + 0x80)).toNat = n + 0x80 := toNat_ofNat (by omega)
  rw [continuation?, hbyte, if_pos (by omega), Nat.add_sub_cancel]

theorem charFrom?_toNat (tolerated : Bool) {least : Nat} {c : Char} (h : least ≤ c.toNat) :
    charFrom? tolerated least c.toNat = some (char c) := by
  have hvalid : c.toNat.isValidChar := c.valid
  have hlt : c.toNat < 0x110000 := (char c).toNat_lt
  rw [charFrom?, if_neg (by omega), if_pos (.inl hvalid), ← CodePoint.toNat_char, CodePoint.ofNat_toNat]

/-- A character is decoded from its bytes. -/
theorem decodeUtf8_utf8EncodeChar (tolerated : Bool) (c : Char) (rest : List UInt8) :
    decodeUtf8 tolerated (String.utf8EncodeChar c ++ rest)
      = (decodeUtf8 tolerated rest).map (char c :: ·) := by
  have hlt : c.toNat < 0x110000 := (char c).toNat_lt
  have hnumber : c.val.toNat = c.toNat := rfl
  have hlow := continuation?_ofNat (Nat.mod_lt c.toNat (by decide : 0 < 64))
  have hmiddle := continuation?_ofNat (Nat.mod_lt (c.toNat / 64) (by decide : 0 < 64))
  have hhigh := continuation?_ofNat (Nat.mod_lt (c.toNat / 4096) (by decide : 0 < 64))
  unfold String.utf8EncodeChar
  simp only [hnumber]
  -- one case for each number of bytes that a character may have
  split
  · next hone =>
    have hbyte : (UInt8.ofNat c.toNat).toNat = c.toNat := toNat_ofNat (by omega)
    rw [List.singleton_append, decodeUtf8.eq_def]
    simp only [hbyte]
    rw [if_pos (by omega), ← CodePoint.toNat_char, CodePoint.ofNat_toNat]
  split
  · next hone htwo =>
    have hbyte : (UInt8.ofNat (c.toNat / 64 % 32 + 192)).toNat = c.toNat / 64 + 192 := by
      rw [toNat_ofNat (by omega)]
      omega
    have hsum : (c.toNat / 64 + 192 - 0xc0) * 0x40 + c.toNat % 64 = c.toNat := by omega
    rw [List.cons_append, List.singleton_append, decodeUtf8, hbyte, if_neg (by omega)]
    simp only [hlow, Option.bind_some]
    rw [if_pos (by omega), hsum, charFrom?_toNat tolerated (by omega), Option.bind_some]
  split
  · next hone htwo hthree =>
    have hbyte : (UInt8.ofNat (c.toNat / 4096 % 16 + 224)).toNat = c.toNat / 4096 + 224 := by
      rw [toNat_ofNat (by omega)]
      omega
    have hsum : (c.toNat / 4096 + 224 - 0xe0) * 0x1000 + c.toNat / 64 % 64 * 0x40 + c.toNat % 64
        = c.toNat := by
      omega
    rw [List.cons_append, List.cons_append, List.singleton_append, decodeUtf8, hbyte,
      if_neg (by omega)]
    simp only [hlow, hmiddle, Option.bind_some]
    rw [if_neg (by omega), if_pos (by omega), hsum, charFrom?_toNat tolerated (by omega),
      Option.bind_some]
  · next hone htwo hthree =>
    have hbyte : (UInt8.ofNat (c.toNat / 262144 % 8 + 240)).toNat = c.toNat / 262144 + 240 := by
      rw [toNat_ofNat (by omega)]
      omega
    have hsum : (c.toNat / 262144 + 240 - 0xf0) * 0x40000 + c.toNat / 4096 % 64 * 0x1000
        + c.toNat / 64 % 64 * 0x40 + c.toNat % 64 = c.toNat := by
      omega
    rw [List.cons_append, List.cons_append, List.cons_append, List.singleton_append, decodeUtf8,
      hbyte, if_neg (by omega)]
    simp only [hlow, hmiddle, hhigh, Option.bind_some]
    rw [if_neg (by omega), if_neg (by omega), if_pos (by omega), hsum,
      charFrom?_toNat tolerated (by omega), Option.bind_some]

theorem decodeUtf8_flatMap (tolerated : Bool) (cs : List Char) :
    decodeUtf8 tolerated (cs.flatMap String.utf8EncodeChar) = some (cs.map char) := by
  induction cs with
  | nil => rfl
  | cons c cs ih => rw [List.flatMap_cons, decodeUtf8_utf8EncodeChar, ih, Option.map_some, List.map_cons]

/-- The text of bytes that code points are written in is these code points. -/
theorem decodeUtf8_encodeUtf8 (tolerated : Bool) {cs : List CodePoint} {bytes : List UInt8}
    (h : encodeUtf8 cs = some bytes) : decodeUtf8 tolerated bytes = some cs := by
  induction cs generalizing bytes with
  | nil =>
    cases h
    rfl
  | cons c cs ih =>
    cases c with
    | surrogate n => cases h
    | char c =>
      obtain ⟨rest, hrest, rfl⟩ := Option.map_eq_some_iff.1 h
      rw [decodeUtf8_utf8EncodeChar, ih hrest, Option.map_some]

theorem encodeUtf8_map_char (cs : List Char) :
    encodeUtf8 (cs.map char) = some (cs.flatMap String.utf8EncodeChar) := by
  induction cs with
  | nil => rfl
  | cons c cs ih => rw [List.map_cons, encodeUtf8, ih, Option.map_some, List.flatMap_cons]

@[simp] theorem utf8?_ofString (text : String) :
    (Text.ofString text).utf8? = some (text.toList.flatMap String.utf8EncodeChar) :=
  encodeUtf8_map_char text.toList

/-- Only surrogates have no bytes. -/
theorem isSome_encodeUtf8_iff {cs : List CodePoint} :
    (encodeUtf8 cs).isSome = true ↔ ∀ c ∈ cs, c.isSurrogate = false := by
  induction cs with
  | nil => simp [encodeUtf8]
  | cons c cs ih => cases c <;> simp [encodeUtf8, CodePoint.isSurrogate, ih]

/-! ### The encoding that bytes show -/

/-- Only the character zero has a byte that is zero, and no byte is above `f7`. -/
theorem bounds_utf8EncodeChar {c : Char} (hc : c ≠ '\x00') :
    ∀ b ∈ String.utf8EncodeChar c, 0 < b.toNat ∧ b.toNat < 0xf8 := by
  have hlt : c.toNat < 0x110000 := (char c).toNat_lt
  have hnumber : c.val.toNat = c.toNat := rfl
  have hpos : 0 < c.toNat := toNat_pos hc
  have hbyte {n : Nat} (hn : 0 < n) (hn' : n < 0xf8) :
      0 < (UInt8.ofNat n).toNat ∧ (UInt8.ofNat n).toNat < 0xf8 := by
    rw [toNat_ofNat (by omega)]
    exact ⟨hn, hn'⟩
  unfold String.utf8EncodeChar
  simp only [hnumber]
  split
  · exact List.forall_mem_singleton.2 (hbyte hpos (by omega))
  split
  · simp only [List.forall_mem_cons]
    exact ⟨hbyte (by omega) (by omega), hbyte (by omega) (by omega), by simp⟩
  split
  · simp only [List.forall_mem_cons]
    exact ⟨hbyte (by omega) (by omega), hbyte (by omega) (by omega), hbyte (by omega) (by omega),
      by simp⟩
  · simp only [List.forall_mem_cons]
    exact ⟨hbyte (by omega) (by omega), hbyte (by omega) (by omega), hbyte (by omega) (by omega),
      hbyte (by omega) (by omega), by simp⟩

/-- Where neither of the first two bytes is zero, the encoding is UTF-8. -/
theorem ofZeros_of_ne {a b : UInt8} (ha : a ≠ 0) (hb : b ≠ 0) (rest : List UInt8) :
    Encoding.ofZeros (a :: b :: rest) = .utf8 := by
  match rest with
  | [] => rw [Encoding.ofZeros, if_neg ha, if_neg hb]
  | [_] => rfl
  | _ :: _ :: _ => rw [Encoding.ofZeros, if_neg ha, if_neg hb]

end FeatureToggles.Text
