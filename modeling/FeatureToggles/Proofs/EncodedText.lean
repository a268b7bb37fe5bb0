import FeatureToggles.Proofs.Utf8Text

/-!
# Texts in each encoding

The bytes that a text has in UTF-8, and in UTF-16 and UTF-32 with either end of a unit first, are decoded
to this text where the encoding is known. It need not be told for a text that starts with an ASCII character
and not with the character zero in one of its first two places: there its zero bytes show it.
-/

namespace FeatureToggles.Text

open CodePoint (char)

/-- The two bytes of a 16-bit unit. -/
def unitBytes (bigEndian : Bool) (n : Nat) : List UInt8 :=
  if bigEndian then [.ofNat (n / 0x100), .ofNat (n % 0x100)] else [.ofNat (n % 0x100), .ofNat (n / 0x100)]

/-- The two halves of a 32-bit unit. -/
def unitHalves (bigEndian : Bool) (n : Nat) : List Nat :=
  if bigEndian then [n / 0x10000, n % 0x10000] else [n % 0x10000, n / 0x10000]

namespace Encoding

/-- The bytes of a character in an encoding. -/
def charBytes : Encoding → Char → List UInt8
  | utf8, c => String.utf8EncodeChar c
  | utf16 bigEndian, c => (charUnits c).flatMap (unitBytes bigEndian)
  | utf32 bigEndian, c => (unitHalves bigEndian c.toNat).flatMap (unitBytes bigEndian)

/-- The bytes of a text in an encoding, without a byte order mark. -/
def encode (encoding : Encoding) (cs : List Char) : List UInt8 :=
  cs.flatMap encoding.charBytes

end Encoding

variable {bigEndian : Bool} {n : Nat} {c : Char} {cs : List Char} {bytes : List UInt8}

/-! ### Bytes and units -/

theorem pairs?_unitBytes (hn : n < 0x10000) (rest : List UInt8) :
    pairs? bigEndian (unitBytes bigEndian n ++ rest) = (pairs? bigEndian rest).map (n :: ·) := by
  have hhigh : (UInt8.ofNat (n / 0x100)).toNat = n / 0x100 := toNat_ofNat (by omega)
  have hlow : (UInt8.ofNat (n % 0x100)).toNat = n % 0x100 := toNat_ofNat (by omega)
  have hsum : n / 0x100 * 0x100 + n % 0x100 = n := Nat.div_add_mod' n 0x100
  cases bigEndian <;> simp [unitBytes, pairs?, hhigh, hlow, hsum]

/-- Units are read from their bytes. -/
theorem pairs?_flatMap {units : List Nat} (h : ∀ n ∈ units, n < 0x10000) :
    pairs? bigEndian (units.flatMap (unitBytes bigEndian)) = some units := by
  induction units with
  | nil => rfl
  | cons n units ih =>
    obtain ⟨hn, hunits⟩ := List.forall_mem_cons.1 h
    rw [List.flatMap_cons, pairs?_unitBytes hn, ih hunits, Option.map_some]

theorem unitHalves_lt (h : n < 0x110000) : ∀ half ∈ unitHalves bigEndian n, half < 0x10000 := by
  unfold unitHalves
  split <;>
  · simp only [List.forall_mem_cons]
    exact ⟨by omega, by omega, by simp⟩

theorem join_unitHalves (n : Nat) (rest : List Nat) :
    quadruples?.join bigEndian (unitHalves bigEndian n ++ rest)
      = (quadruples?.join bigEndian rest).map (n :: ·) := by
  have hsum : n / 0x10000 * 0x10000 + n % 0x10000 = n := Nat.div_add_mod' n 0x10000
  cases bigEndian <;> simp [unitHalves, quadruples?.join, hsum]

/-- Units of twice the width are put together from their halves. -/
theorem join_flatMap (ns : List Nat) :
    quadruples?.join bigEndian (ns.flatMap (unitHalves bigEndian)) = some ns := by
  induction ns with
  | nil => rfl
  | cons n ns ih => rw [List.flatMap_cons, join_unitHalves, ih, Option.map_some]

/-! ### Units and characters -/

theorem charUnits_lt (c : Char) : ∀ n ∈ charUnits c, n < 0x10000 := by
  have hlt := (char c).toNat_lt
  unfold charUnits
  split
  · next hone => exact List.forall_mem_singleton.2 hone
  · intro n hn
    simp only [List.mem_cons, List.not_mem_nil, or_false] at hn
    omega

/-- A character is read from its units. -/
theorem ofUnits_charUnits (c : Char) (rest : List Nat) :
    ofUnits (charUnits c ++ rest) = char c :: ofUnits rest := by
  unfold charUnits
  split
  · -- no character has the number of a surrogate, so its one unit does not join the next
    have hsingle : isHighSurrogate (char c).toNat = false := isHighSurrogate_toNat c
    cases rest with
    | nil => exact congrArg (fun d => [d]) (char c).ofNat_toNat
    | cons n rest =>
      rw [List.singleton_append, ofUnits, hsingle, Bool.false_and, if_neg Bool.false_ne_true,
        CodePoint.ofNat_toNat]
  · next htwo =>
    have hlt := (char c).toNat_lt
    have hhigh : isHighSurrogate (0xd800 + ((char c).toNat - 0x10000) / 0x400) = true := by
      simp only [isHighSurrogate, Bool.and_eq_true, decide_eq_true_eq]
      omega
    have hlow : isLowSurrogate (0xdc00 + ((char c).toNat - 0x10000) % 0x400) = true := by
      simp only [isLowSurrogate, Bool.and_eq_true, decide_eq_true_eq]
      omega
    rw [List.cons_append, List.singleton_append, ofUnits, hhigh, hlow, Bool.and_self, if_pos rfl,
      Json.pairChar_units (by omega)]

theorem ofUnits_flatMap (cs : List Char) : ofUnits (cs.flatMap fun c => charUnits (char c)) = cs.map char := by
  induction cs with
  | nil => rfl
  | cons c cs ih => rw [List.flatMap_cons, ofUnits_charUnits, ih, List.map_cons]

theorem mapM_charFrom? (cs : List Char) :
    (cs.map Char.toNat).mapM (charFrom? true 0) = some (cs.map char) := by
  induction cs with
  | nil => rfl
  | cons c cs ih => rw [List.map_cons, List.mapM_cons, charFrom?_toNat true (Nat.zero_le _), ih]; rfl

namespace Encoding

theorem encode_utf16 (bigEndian : Bool) (cs : List Char) :
    encode (utf16 bigEndian) cs = (cs.flatMap fun c => charUnits (char c)).flatMap (unitBytes bigEndian) :=
  List.flatMap_assoc.symm

theorem encode_utf32 (bigEndian : Bool) (cs : List Char) :
    encode (utf32 bigEndian) cs
      = ((cs.map Char.toNat).flatMap (unitHalves bigEndian)).flatMap (unitBytes bigEndian) := by
  rw [List.flatMap_map, List.flatMap_assoc]
  rfl

/-- A text is decoded from its bytes in each encoding. -/
theorem decode_encode (encoding : Encoding) (cs : List Char) :
    encoding.decode (encoding.encode cs) = some (cs.map char) := by
  cases encoding with
  | utf8 => exact decodeUtf8_flatMap true cs
  | utf16 bigEndian =>
    have hunits : ∀ n ∈ (cs.flatMap fun c => charUnits (char c)), n < 0x10000 := by
      intro n hn
      obtain ⟨c, -, hn⟩ := List.mem_flatMap.1 hn
      exact charUnits_lt c n hn
    rw [decode, encode_utf16, pairs?_flatMap hunits, Option.map_some, ofUnits_flatMap]
  | utf32 bigEndian =>
    have hhalves : ∀ half ∈ (cs.map Char.toNat).flatMap (unitHalves bigEndian), half < 0x10000 := by
      intro half hhalf
      obtain ⟨n, hn, hhalf⟩ := List.mem_flatMap.1 hhalf
      obtain ⟨c, -, rfl⟩ := List.mem_map.1 hn
      exact unitHalves_lt (char c).toNat_lt half hhalf
    rw [decode, encode_utf32, quadruples?, pairs?_flatMap hhalves, Option.bind_some, join_flatMap,
      Option.bind_some, mapM_charFrom?]

end Encoding

/-! ### The encoding that shows -/

/-- A text that starts with an ASCII character and has the character zero in neither of its first two
places. -/
inductive ShowsEncoding : List CodePoint → Prop
  | start {c : CodePoint} {rest : List CodePoint} (hascii : c.toNat < 0x80) (hpos : 0 < c.toNat)
    (hnext : rest.head? ≠ some (char '\x00')) : ShowsEncoding (c :: rest)

theorem ShowsEncoding.head?_ne_mark {cs : List CodePoint} (h : ShowsEncoding cs) :
    cs.head? ≠ some (char '\ufeff') := by
  obtain ⟨hascii, -, -⟩ := h
  rintro ⟨⟩
  exact absurd hascii (by decide)

theorem unitBytes_ne_zero (bigEndian : Bool) (hpos : 0 < n) (hn : n < 0x10000) :
    ∃ a b, unitBytes bigEndian n = [a, b] ∧ ¬(a = 0 ∧ b = 0) := by
  have hread : pairs? bigEndian (unitBytes bigEndian n ++ []) = some [n] := pairs?_unitBytes hn []
  obtain ⟨a, b, hbytes⟩ : ∃ a b, unitBytes bigEndian n = [a, b] := by
    cases bigEndian <;> exact ⟨_, _, rfl⟩
  refine ⟨a, b, hbytes, ?_⟩
  -- two zero bytes are read as the unit zero
  rintro ⟨rfl, rfl⟩
  rw [hbytes] at hread
  have hzero : n = 0 := by
    cases bigEndian <;> simpa [pairs?] using hread.symm
  omega

namespace Encoding

/-- In UTF-8, a character other than zero does not start with a zero byte. -/
theorem exists_charBytes_utf8 (hc : c ≠ '\x00') : ∃ a more, charBytes utf8 c = a :: more ∧ a ≠ 0 := by
  obtain ⟨a, more, hbytes⟩ := List.exists_cons_of_ne_nil String.utf8EncodeChar_ne_nil
  have hmem : a ∈ String.utf8EncodeChar c := hbytes ▸ List.mem_cons_self ..
  have hpos : 0 < a.toNat := (bounds_utf8EncodeChar hc a hmem).1
  exact ⟨a, more, hbytes, fun h => Nat.ne_of_gt hpos (congrArg UInt8.toNat h)⟩

/-- In UTF-16, a character other than zero does not start with two zero bytes. -/
theorem exists_charBytes_utf16 (bigEndian : Bool) (hc : c ≠ '\x00') :
    ∃ a b more, charBytes (utf16 bigEndian) c = a :: b :: more ∧ ¬(a = 0 ∧ b = 0) := by
  have hlt := (char c).toNat_lt
  have hpos : 0 < (char c).toNat := toNat_pos hc
  have hunits : ∃ n units, charUnits c = n :: units ∧ 0 < n ∧ n < 0x10000 := by
    unfold charUnits
    split
    · next hone => exact ⟨_, _, rfl, hpos, hone⟩
    · exact ⟨_, _, rfl, by omega, by omega⟩
  obtain ⟨n, units, hunits, hn, hn'⟩ := hunits
  obtain ⟨a, b, hbytes, hne⟩ := unitBytes_ne_zero bigEndian hn hn'
  exact ⟨a, b, _, by rw [charBytes, hunits, List.flatMap_cons, hbytes]; rfl, hne⟩

/-- The bytes of an ASCII character: its one byte, and zeros. -/
def padded : Encoding → UInt8 → List UInt8
  | utf8, b => [b]
  | utf16 true, b => [0, b]
  | utf16 false, b => [b, 0]
  | utf32 true, b => [0, 0, 0, b]
  | utf32 false, b => [b, 0, 0, 0]

theorem charBytes_of_ascii (encoding : Encoding) (h : c.toNat < 0x80) :
    encoding.charBytes c = encoding.padded (.ofNat c.toNat) := by
  have hhigh : c.toNat / 0x100 = 0 := Nat.div_eq_of_lt (by omega)
  have hlow : c.toNat % 0x100 = c.toNat := Nat.mod_eq_of_lt (by omega)
  have hhighHalf : c.toNat / 0x10000 = 0 := Nat.div_eq_of_lt (by omega)
  have hlowHalf : c.toNat % 0x10000 = c.toNat := Nat.mod_eq_of_lt (by omega)
  have hunits : charUnits c = [c.toNat] := if_pos (show c.toNat < 0x10000 by omega)
  cases encoding with
  | utf8 => exact if_pos (show c.toNat ≤ 0x7f by omega)
  | utf16 bigEndian => cases bigEndian <;> simp [charBytes, padded, unitBytes, hunits, hhigh, hlow]
  | utf32 bigEndian =>
    cases bigEndian <;>
      simp [charBytes, padded, unitBytes, unitHalves, hhighHalf, hlowHalf, hhigh, hlow]

/-- No byte order mark but that of UTF-32 starts with an ASCII character. -/
theorem detect_of_ascii {a : UInt8} {rest : List UInt8} (ha : a.toNat < 0x80)
    (hmark : ∀ after, a :: rest ≠ 0x00 :: 0x00 :: 0xfe :: 0xff :: after) :
    detect (a :: rest) = (ofZeros (a :: rest), a :: rest) := by
  have hstart {x : UInt8} {after : List UInt8} (hx : 0x80 ≤ x.toNat) : a :: rest ≠ x :: after := by
    intro heq
    rw [(List.cons.inj heq).1] at ha
    omega
  unfold detect
  split
  · next heq => exact absurd heq (hmark _)
  · next heq => exact absurd heq (hstart (by decide))
  · next heq => exact absurd heq (hstart (by decide))
  · next heq => exact absurd heq (hstart (by decide))
  · next heq => exact absurd heq (hstart (by decide))
  · rfl

theorem detect_padded {b : UInt8} (encoding : Encoding) (hb : b ≠ 0) (hascii : b.toNat < 0x80)
    (rest : List UInt8) :
    detect (encoding.padded b ++ rest) = (ofZeros (encoding.padded b ++ rest), encoding.padded b ++ rest) := by
  have hmark {rest after : List UInt8} : b :: rest ≠ 0x00 :: after := fun heq => hb (List.cons.inj heq).1
  cases encoding with
  | utf8 => exact detect_of_ascii hascii fun _ => hmark
  | utf16 bigEndian =>
    cases bigEndian with
    | true => exact detect_of_ascii (by decide) fun _ heq => hmark (List.cons.inj heq).2
    | false => exact detect_of_ascii hascii fun _ => hmark
  | utf32 bigEndian =>
    cases bigEndian with
    | true =>
      -- where the byte order mark goes on with `fe`, these bytes have their third zero
      refine detect_of_ascii (by decide) fun after heq => ?_
      exact absurd (List.cons.inj (List.cons.inj (List.cons.inj heq).2).2).1 (by decide)
    | false => exact detect_of_ascii hascii fun _ => hmark

/-- Zero bytes show the encoding of a text that starts with an ASCII character, if the second character is
not zero. -/
theorem ofZeros_padded {b : UInt8} (encoding : Encoding) (hb : b ≠ 0)
    (hnext : cs.head? ≠ some '\x00') : ofZeros (encoding.padded b ++ encoding.encode cs) = encoding := by
  have hfirst : ∀ c after, cs = c :: after → c ≠ '\x00' := by
    rintro c after rfl rfl
    exact hnext rfl
  cases encoding with
  | utf8 =>
    cases cs with
    | nil => rfl
    | cons c after =>
      obtain ⟨x, more, hbytes, hne⟩ := exists_charBytes_utf8 (hfirst c after rfl)
      rw [encode, List.flatMap_cons, hbytes]
      exact ofZeros_of_ne hb hne _
  | utf16 bigEndian =>
    cases cs with
    | nil => cases bigEndian <;> simp [padded, encode, ofZeros, hb]
    | cons c after =>
      -- two more zeros would show UTF-32
      obtain ⟨x, y, more, hbytes, hne⟩ := exists_charBytes_utf16 bigEndian (hfirst c after rfl)
      rw [encode, List.flatMap_cons, hbytes]
      cases bigEndian <;> simp [padded, ofZeros, hb, hne]
  | utf32 bigEndian =>
    -- the first character alone has the three zeros that settle it
    cases bigEndian <;> simp [padded, ofZeros, hb]

/-- A text that shows its encoding shows it in each. -/
theorem detect_encode (encoding : Encoding) (h : ShowsEncoding (cs.map char)) :
    detect (encoding.encode cs) = (encoding, encoding.encode cs) := by
  cases cs with
  | nil => cases h
  | cons c rest =>
    obtain ⟨hascii, hpos, hnext⟩ := h
    rw [CodePoint.toNat_char] at hascii hpos
    have hbyte : (UInt8.ofNat c.toNat).toNat = c.toNat := toNat_ofNat (by omega)
    have hne : UInt8.ofNat c.toNat ≠ 0 := by
      intro hzero
      rw [hzero] at hbyte
      exact Nat.ne_of_gt hpos hbyte.symm
    have hrest : rest.head? ≠ some '\x00' := by
      intro hzero
      rw [List.head?_map, hzero] at hnext
      exact hnext rfl
    rw [encode, List.flatMap_cons, charBytes_of_ascii encoding hascii,
      detect_padded encoding hne (by omega)]
    exact congrArg (·, _) (ofZeros_padded encoding hne hrest)

end Encoding

/-! ### Bytes that hold a text -/

/-- `Encoded cs bytes`: the bytes are those of a text in one of the encodings, or those in UTF-8 after a byte
order mark. -/
inductive Encoded (cs : List Char) : List UInt8 → Prop
  | plain (encoding : Encoding) : Encoded cs (encoding.encode cs)
  | marked : Encoded cs (0xef :: 0xbb :: 0xbf :: Encoding.utf8.encode cs)

theorem Encoded.decodeDetected (h : Encoded cs bytes) (hshows : ShowsEncoding (cs.map char)) :
    decodeDetected bytes = some (cs.map char) := by
  cases h with
  | plain encoding => rw [Text.decodeDetected, Encoding.detect_encode encoding hshows, Encoding.decode_encode]
  | marked => exact Encoding.decode_encode .utf8 cs

theorem Encoded.ne_nil (h : Encoded cs bytes) (hshows : ShowsEncoding (cs.map char)) : bytes ≠ [] := by
  rintro rfl
  have hdecoded : Text.decodeDetected [] = some (cs.map char) := h.decodeDetected hshows
  have hnil : [] = cs.map char := Option.some.inj hdecoded
  rw [← hnil] at hshows
  cases hshows

end FeatureToggles.Text
