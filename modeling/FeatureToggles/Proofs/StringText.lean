import FeatureToggles.Json.Token
import FeatureToggles.Json.Writer
import Mathlib.Data.List.Forall2

/-!
# JSON strings read back

Every code point of a string is written in one of three ways: as one that stands for itself or has an
escape of its own, as one UTF-16 unit, or as a pair of units. Each of them reads back as the code
point, but two surrogates that make a pair are read as the character of this pair.
-/

namespace FeatureToggles.Json

open CodePoint (char)
open Text (hexFixed hexNumber? hexNumber?_hexFixed isHighSurrogate isLowSurrogate joinPairs pairChar)

/-- The units of a character beyond the first plane are a pair that stands for it. -/
theorem pairChar_units {c : CodePoint} (h : 0x10000 ≤ c.toNat) :
    pairChar (0xd800 + (c.toNat - 0x10000) / 0x400) (0xdc00 + (c.toNat - 0x10000) % 0x400) = c := by
  have hnumber : 0x10000 + (0xd800 + (c.toNat - 0x10000) / 0x400 - 0xd800) * 0x400
      + (0xdc00 + (c.toNat - 0x10000) % 0x400 - 0xdc00) = c.toNat := by
    omega
  rw [pairChar, hnumber, CodePoint.ofNat_toNat]

/-- Reading the text gives the pieces and goes on behind it. -/
def GivesPieces (cs : List CodePoint) (pieces : List Piece) : Prop :=
  ∀ rest, piecesAt (cs ++ rest) = (piecesAt rest).map fun (more, after) => (pieces ++ more, after)

theorem GivesPieces.append {cs ds : List CodePoint} {ps qs : List Piece} (hcs : GivesPieces cs ps)
    (hds : GivesPieces ds qs) : GivesPieces (cs ++ ds) (ps ++ qs) := by
  intro rest
  rw [List.append_assoc, hcs, hds, Option.map_map]
  congr 1
  funext more
  exact congrArg (·, more.2) (List.append_assoc ps qs more.1).symm

/-- A unit is written as four digits, which hold it whole. -/
theorem givesPieces_unitEscape {n : Nat} (h : n < 0x10000) :
    GivesPieces (unitEscape n) [.unit n] := by
  intro rest
  have hnumber : hexNumber? (hexFixed 4 n) = some n := hexNumber?_hexFixed h
  have hlength : (hexFixed 4 n).length = 4 := Text.length_hexFixed 4 n
  rw [unitEscape]
  -- the reader asks for four digits by name
  match hdigits : hexFixed 4 n, hlength with
  | [a, b, c, d], _ =>
    rw [hdigits] at hnumber
    simp [piecesAt, hnumber]

theorem givesPieces_escape {e c : CodePoint} (he : e ≠ 'u') (h : escaped? e = some c) :
    GivesPieces ['\\', e] [.char c] := by
  intro rest
  rw [List.cons_append, List.singleton_append, piecesAt, h]
  · rfl
  · intro _ _ _ _ _ hu
    exact absurd hu he

theorem givesPieces_char {c : CodePoint} (hlow : 0x20 ≤ c.toNat) (hquote : c ≠ '\x22')
    (hslash : c ≠ '\\') : GivesPieces [c] [.char c] := by
  intro rest
  rw [List.singleton_append, piecesAt, if_neg (by omega)]
  · rfl
  · exact hquote
  · intro _ _ _ _ _ hu
    exact absurd hu hslash
  · intro _ _ hu
    exact absurd hu hslash

/-- The pieces that a code point is read back as. Only an escape by number gives a surrogate. -/
inductive SpelledBy : CodePoint → List Piece → Prop
  | char {c : CodePoint} (h : c.toNat < 0x7f) : SpelledBy c [.char c]
  | unit {c : CodePoint} (h : c.toNat < 0x10000) : SpelledBy c [.unit c.toNat]
  | pair {c : CodePoint} (h : 0x10000 ≤ c.toNat) :
    SpelledBy c [.unit (0xd800 + (c.toNat - 0x10000) / 0x400),
      .unit (0xdc00 + (c.toNat - 0x10000) % 0x400)]

/-- The written form of a code point is read as pieces of this code point. -/
theorem exists_pieces_charText (c : CodePoint) :
    ∃ pieces, GivesPieces (charText c) pieces ∧ SpelledBy c pieces := by
  have hescape (e : CodePoint) (he : e ≠ 'u') (h : escaped? e = some c) (hc : c.toNat < 0x7f) :
      ∃ pieces, GivesPieces ['\\', e] pieces ∧ SpelledBy c pieces :=
    ⟨[.char c], givesPieces_escape he h, .char hc⟩
  have hunit (h : c.toNat < 0x10000) :
      ∃ pieces, GivesPieces (unitEscape c.toNat) pieces ∧ SpelledBy c pieces :=
    ⟨[.unit c.toNat], givesPieces_unitEscape h, .unit h⟩
  -- the cases are those of the written form, in their order
  unfold charText
  split
  · next h => rcases h with rfl | rfl <;> exact hescape _ (by decide) rfl (by decide)
  split
  · next h => exact hescape 'n' (by decide) (h ▸ rfl) (h ▸ by decide)
  split
  · next h => exact hescape 'r' (by decide) (h ▸ rfl) (h ▸ by decide)
  split
  · next h => exact hescape 't' (by decide) (h ▸ rfl) (h ▸ by decide)
  split
  · next h => exact hescape 'b' (by decide) (h ▸ rfl) (h ▸ by decide)
  split
  · next h => exact hescape 'f' (by decide) (h ▸ rfl) (h ▸ by decide)
  split
  · exact hunit (by omega)
  split
  · next hquote _ _ _ _ _ hlow hhigh =>
    rw [not_or] at hquote
    exact ⟨[.char c], givesPieces_char (Nat.not_lt.1 hlow) hquote.1 hquote.2, .char hhigh⟩
  split
  · next h => exact hunit h
  · next h =>
    have hlt := c.toNat_lt
    exact ⟨_, (givesPieces_unitEscape (by omega)).append (givesPieces_unitEscape (by omega)),
      .pair (Nat.not_lt.1 h)⟩

/-- The code points between the quotes are read as pieces of them. -/
theorem exists_pieces_flatMap (cs rest : List CodePoint) :
    ∃ pieces : List (List Piece), List.Forall₂ SpelledBy cs pieces ∧
      piecesAt (cs.flatMap charText ++ char '\x22' :: rest) = some (pieces.flatten, rest) := by
  induction cs with
  | nil => exact ⟨[], .nil, by rw [List.flatMap_nil, List.nil_append, piecesAt, List.flatten_nil]⟩
  | cons c cs ih =>
    obtain ⟨more, hmore, hread⟩ := ih
    obtain ⟨pieces, hpieces, hc⟩ := exists_pieces_charText c
    refine ⟨pieces :: more, .cons hc hmore, ?_⟩
    rw [List.flatMap_cons, List.append_assoc, hpieces, hread]
    rfl

theorem SpelledBy.eq_unit {c : CodePoint} {pieces : List Piece} (h : SpelledBy c pieces)
    (hlow : 0xd800 ≤ c.toNat) (hhigh : c.toNat < 0xe000) : pieces = [.unit c.toNat] := by
  cases h with
  | char => omega
  | unit => rfl
  | pair => omega

/-- The pieces of a code point go together to it, if the pieces behind them are not those of the other half of
a pair. -/
theorem assemble_append {c : CodePoint} {pieces more : List Piece} (h : SpelledBy c pieces)
    (hmore : ∀ n rest, more = .unit n :: rest → (isHighSurrogate c.toNat && isLowSurrogate n) = false) :
    assemble (pieces ++ more) = c :: assemble more := by
  cases h with
  | char => rfl
  | unit h =>
    rcases more with _ | ⟨_ | n, rest⟩
    · simp [assemble, CodePoint.ofNat_toNat]
    · simp [assemble, CodePoint.ofNat_toNat]
    · simp [assemble, hmore n rest rfl, CodePoint.ofNat_toNat]
  | pair h =>
    have hlt := c.toNat_lt
    -- a character has at most twenty bits beyond the first plane, ten for each unit
    have hhigh : isHighSurrogate (0xd800 + (c.toNat - 0x10000) / 0x400) = true := by
      simp only [isHighSurrogate, Bool.and_eq_true, decide_eq_true_eq]
      omega
    have hlow : isLowSurrogate (0xdc00 + (c.toNat - 0x10000) % 0x400) = true := by
      simp only [isLowSurrogate, Bool.and_eq_true, decide_eq_true_eq]
      omega
    simp [assemble, hhigh, hlow, pairChar_units h]

/-- Only the pieces of a low surrogate start with one. -/
theorem SpelledBy.isLowSurrogate_eq {c : CodePoint} {n : Nat} {pieces rest more : List Piece}
    (h : SpelledBy c pieces) (hstart : pieces ++ more = .unit n :: rest) (hn : isLowSurrogate n = true) :
    n = c.toNat := by
  cases h with
  | char => cases hstart
  | unit => cases hstart; rfl
  | pair hc =>
    cases hstart
    have hlt := c.toNat_lt
    simp only [isLowSurrogate, Bool.and_eq_true, decide_eq_true_eq] at hn
    omega

/-- The pieces of code points go together to them, except that surrogates which make a pair are joined. -/
theorem assemble_flatten {cs : List CodePoint} {pieces : List (List Piece)}
    (h : List.Forall₂ SpelledBy cs pieces) : assemble pieces.flatten = joinPairs cs := by
  fun_induction joinPairs cs generalizing pieces with
  | case1 =>
    cases h
    rfl
  | case2 c d rest hpair ih =>
    rcases h with _ | ⟨hc, _ | ⟨hd, hmore⟩⟩
    obtain ⟨hhigh, hlow⟩ : isHighSurrogate c.toNat = true ∧ isLowSurrogate d.toNat = true := by
      rwa [Bool.and_eq_true] at hpair
    simp only [isHighSurrogate, Bool.and_eq_true, decide_eq_true_eq] at hhigh
    simp only [isLowSurrogate, Bool.and_eq_true, decide_eq_true_eq] at hlow
    rw [hc.eq_unit hhigh.1 (by omega), hd.eq_unit (by omega) hlow.2]
    rw [List.flatten_cons, List.flatten_cons, List.singleton_append, List.singleton_append, assemble,
      if_pos hpair, ih hmore]
  | case3 c d rest hpair ih =>
    rcases h with _ | ⟨hc, h⟩
    rw [List.flatten_cons, assemble_append hc, ih h]
    rcases h with _ | ⟨hd, -⟩
    intro n behind hstart
    rw [Bool.eq_false_iff, Ne, Bool.and_eq_true]
    rintro ⟨hhigh, hlow⟩
    rw [hd.isLowSurrogate_eq hstart hlow] at hlow
    exact hpair (Bool.and_eq_true_iff.2 ⟨hhigh, hlow⟩)
  | case4 c =>
    rcases h with _ | ⟨hc, _ | _⟩
    rw [List.flatten_cons, assemble_append hc (by rintro n rest ⟨⟩)]
    rfl

/-- A string is read back with its pairs of surrogates joined. -/
theorem tokens_stringText (s : Text) (rest : List CodePoint) :
    tokens (stringText s ++ rest) = .string s.joined :: tokens rest := by
  obtain ⟨pieces, hpieces, hread⟩ := exists_pieces_flatMap s.toList rest
  have hassemble := assemble_flatten hpieces
  have htext : stringText s ++ rest
      = char '\x22' :: (s.toList.flatMap charText ++ char '\x22' :: rest) := by
    simp [stringText]
  have htoken : tokenAt '\x22' (s.toList.flatMap charText ++ char '\x22' :: rest)
      = (.string s.joined, rest) := by
    simp [tokenAt, hread, hassemble, Text.joined]
  rw [htext, tokens, if_neg (by decide), htoken]

end FeatureToggles.Json
