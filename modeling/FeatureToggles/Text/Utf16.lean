import FeatureToggles.Text.Basic

/-!
# UTF-16 units

A character beyond the first plane is written as a pair of units, a high surrogate and a low one. A
surrogate that is not part of a pair stands for itself.
-/

namespace FeatureToggles.Text

/-- Whether a unit is the first half of a pair. -/
def isHighSurrogate (n : Nat) : Bool := 0xd800 ≤ n && n < 0xdc00

/-- Whether a unit is the second half of a pair. -/
def isLowSurrogate (n : Nat) : Bool := 0xdc00 ≤ n && n < 0xe000

/-- The character of a pair of surrogates. -/
def pairChar (high low : Nat) : CodePoint :=
  .ofNat (0x10000 + (high - 0xd800) * 0x400 + (low - 0xdc00))

/-- The units of a code point. -/
def charUnits (c : CodePoint) : List Nat :=
  if c.toNat < 0x10000 then [c.toNat]
  else [0xd800 + (c.toNat - 0x10000) / 0x400, 0xdc00 + (c.toNat - 0x10000) % 0x400]

/-- The code points of a list of units. -/
def ofUnits : List Nat → List CodePoint
  | [] => []
  | n :: m :: rest =>
    if isHighSurrogate n && isLowSurrogate m then pairChar n m :: ofUnits rest
    else CodePoint.ofNat n :: ofUnits (m :: rest)
  | [n] => [CodePoint.ofNat n]

/-- Puts every high surrogate together with a low one directly behind it. -/
def joinPairs : List CodePoint → List CodePoint
  | [] => []
  | c :: d :: rest =>
    if isHighSurrogate c.toNat && isLowSurrogate d.toNat then pairChar c.toNat d.toNat :: joinPairs rest
    else c :: joinPairs (d :: rest)
  | [c] => [c]

@[inherit_doc joinPairs] def joined (s : Text) : Text :=
  ofList (joinPairs s.toList)

/-- Whether no high surrogate stands directly before a low one. -/
def unpaired : List CodePoint → Bool
  | c :: d :: rest => !(isHighSurrogate c.toNat && isLowSurrogate d.toNat) && unpaired (d :: rest)
  | _ => true

@[inherit_doc unpaired] def isUnpaired (s : Text) : Bool :=
  unpaired s.toList

theorem joinPairs_of_unpaired {cs : List CodePoint} (h : unpaired cs = true) : joinPairs cs = cs := by
  fun_induction joinPairs cs with
  | case1 => rfl
  | case2 c d rest hpair ih => simp [unpaired, hpair] at h
  | case3 c d rest _ ih =>
    rw [unpaired, Bool.and_eq_true] at h
    rw [ih h.2]
  | case4 c => rfl

/-- A text without pairs of surrogates stays as it is. -/
theorem joined_eq_self {s : Text} (h : s.isUnpaired = true) : s.joined = s :=
  toList_inj.1 (joinPairs_of_unpaired h)

/-- No character is a surrogate. -/
theorem isHighSurrogate_toNat (c : Char) : isHighSurrogate c.toNat = false := by
  have hvalid : c.toNat < 0xd800 ∨ 0xdfff < c.toNat ∧ c.toNat < 0x110000 := c.valid
  simp only [isHighSurrogate, Bool.and_eq_false_iff, decide_eq_false_iff_not]
  omega

/-- A text without surrogates has no pairs of them. -/
theorem isUnpaired_of_isSurrogate {s : Text} (h : ∀ c ∈ s.toList, c.isSurrogate = false) :
    s.isUnpaired = true := by
  obtain ⟨cs⟩ := s
  show unpaired cs = true
  fun_induction unpaired cs with
  | case1 c d rest ih =>
    obtain ⟨hc, hrest⟩ := List.forall_mem_cons.1 h
    cases c with
    | char c => simpa [isHighSurrogate_toNat] using ih hrest
    | surrogate n => cases hc
  | case2 => rfl

@[simp] theorem isUnpaired_ofString (s : String) : (ofString s).isUnpaired = true := by
  refine isUnpaired_of_isSurrogate fun c hc => ?_
  obtain ⟨c, -, rfl⟩ := List.mem_map.1 hc
  rfl

@[simp] theorem joined_ofString (s : String) : (ofString s).joined = ofString s :=
  joined_eq_self (isUnpaired_ofString s)

end FeatureToggles.Text
