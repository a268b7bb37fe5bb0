/-!
# Texts

A text is a list of code points. A code point is a character or a surrogate, a number from `d800` to
`dfff` that stands for no character. Texts of characters only are written as string literals; surrogates
come in through escapes in JSON text.
-/

namespace FeatureToggles

/-- A character or a surrogate. -/
inductive CodePoint where
  | char (c : Char)
  /-- The surrogate with the number `0xd800 + n`. -/
  | surrogate (n : Fin 0x800)
  deriving DecidableEq

namespace CodePoint

instance : Coe Char CodePoint := ⟨char⟩

instance : Inhabited CodePoint := ⟨'\x00'⟩

/-- The number of a code point. -/
def toNat : CodePoint → Nat
  | char c => c.toNat
  | surrogate n => 0xd800 + n.val

/-- The code point with the number `n`, for `n` below `0x110000`. -/
def ofNat (n : Nat) : CodePoint :=
  if h : n.isValidChar then char (Char.ofNatAux n h) else surrogate (Fin.ofNat 0x800 (n - 0xd800))

instance : LT CodePoint := ⟨fun c d => c.toNat < d.toNat⟩

instance : LE CodePoint := ⟨fun c d => c.toNat ≤ d.toNat⟩

instance (c d : CodePoint) : Decidable (c < d) := inferInstanceAs (Decidable (c.toNat < d.toNat))

instance (c d : CodePoint) : Decidable (c ≤ d) := inferInstanceAs (Decidable (c.toNat ≤ d.toNat))

/-- Whether a code point is a surrogate. -/
def isSurrogate : CodePoint → Bool
  | char _ => false
  | surrogate _ => true

/-- Whether a code point is an ASCII digit. -/
def isDigit : CodePoint → Bool
  | char c => c.isDigit
  | surrogate _ => false

/-- The lower-case form of an ASCII letter; everything else is left as it is. -/
def toLower : CodePoint → CodePoint
  | char c => c.toLower
  | surrogate n => surrogate n

@[simp] theorem toNat_char (c : Char) : (char c).toNat = c.toNat := rfl

@[simp] theorem isDigit_char (c : Char) : (char c).isDigit = c.isDigit := rfl

@[simp] theorem isDigit_surrogate (n : Fin 0x800) : (surrogate n).isDigit = false := rfl

theorem toNat_lt (c : CodePoint) : c.toNat < 0x110000 := by
  cases c with
  | char c =>
    have hvalid : c.toNat < 0xd800 ∨ 0xdfff < c.toNat ∧ c.toNat < 0x110000 := c.valid
    rw [toNat_char]
    omega
  | surrogate n =>
    show 0xd800 + n.val < 0x110000
    omega

theorem ofNat_toNat (c : CodePoint) : ofNat c.toNat = c := by
  cases c with
  | char c =>
    have hvalid : c.toNat.isValidChar := c.valid
    rw [toNat_char, ofNat, dif_pos hvalid]
    exact congrArg char (Char.ext (UInt32.toNat_inj.1 rfl))
  | surrogate n =>
    have hvalid : ¬ (0xd800 + n.val).isValidChar := by
      unfold Nat.isValidChar
      omega
    rw [toNat, ofNat, dif_neg hvalid, Nat.add_sub_cancel_left, Fin.ofNat_val_eq_self]

theorem toNat_inj {c d : CodePoint} : c.toNat = d.toNat ↔ c = d := by
  refine ⟨fun h => ?_, congrArg toNat⟩
  rw [← ofNat_toNat c, h, ofNat_toNat]

theorem isDigit_iff_toNat {c : CodePoint} :
    c.isDigit = true ↔ 0x30 ≤ c.toNat ∧ c.toNat ≤ 0x39 := by
  cases c with
  | char c =>
    have hnumber : c.val.toNat = c.toNat := rfl
    simp [Char.isDigit, UInt32.le_iff_toNat_le, hnumber]
  | surrogate n =>
    have hnumber : (surrogate n).toNat = 0xd800 + n.val := rfl
    rw [isDigit_surrogate, hnumber]
    exact iff_of_false Bool.false_ne_true (by omega)

end CodePoint

/-- A list of code points. -/
structure Text where
  ofList ::
  toList : List CodePoint
  deriving DecidableEq

namespace Text

/-- The text of a string. -/
def ofString (s : String) : Text := ⟨s.toList.map .char⟩

instance : Coe String Text := ⟨ofString⟩

instance : Inhabited Text := ⟨""⟩

instance : Append Text := ⟨fun s t => ⟨s.toList ++ t.toList⟩⟩

/-- Texts are ordered by the numbers of their code points, the first ones first. -/
instance : LT Text := ⟨fun s t => s.toList < t.toList⟩

instance (s t : Text) : Decidable (s < t) := inferInstanceAs (Decidable (s.toList < t.toList))

/-- Whether a text has no code points. -/
def isEmpty (s : Text) : Bool := s.toList.isEmpty

/-- The number of code points. -/
def length (s : Text) : Nat := s.toList.length

/-- Texts one after the other. -/
def join (texts : List Text) : Text := ⟨texts.flatMap toList⟩

/-- The text in lower case, as far as its letters are ASCII. -/
def toLower (s : Text) : Text := ⟨s.toList.map CodePoint.toLower⟩

@[simp] theorem toList_ofList (cs : List CodePoint) : (ofList cs).toList = cs := rfl

@[simp] theorem ofList_toList (s : Text) : ofList s.toList = s := rfl

theorem toList_inj {s t : Text} : s.toList = t.toList ↔ s = t := by
  cases s
  cases t
  simp

@[simp] theorem toList_ofString (s : String) : (ofString s).toList = s.toList.map .char := rfl

@[simp] theorem ofString_inj {s t : String} : ofString s = ofString t ↔ s = t := by
  refine ⟨fun h => ?_, congrArg ofString⟩
  exact String.toList_inj.1 ((List.map_inj_right fun _ _ => CodePoint.char.inj).1 (toList_inj.2 h))

@[simp] theorem toList_append (s t : Text) : (s ++ t).toList = s.toList ++ t.toList := rfl

@[simp] theorem append_empty (s : Text) : s ++ ("" : Text) = s :=
  toList_inj.1 (List.append_nil _)

@[simp] theorem join_nil : join [] = "" := rfl

theorem join_cons (s : Text) (texts : List Text) : join (s :: texts) = s ++ join texts := rfl

theorem append_assoc (s t u : Text) : s ++ t ++ u = s ++ (t ++ u) :=
  toList_inj.1 (List.append_assoc ..)

theorem isEmpty_iff {s : Text} : s.isEmpty = true ↔ s = "" := by
  rw [← toList_inj, isEmpty, List.isEmpty_iff]
  rfl

theorem length_toList (s : Text) : s.toList.length = s.length := rfl

end Text

end FeatureToggles
