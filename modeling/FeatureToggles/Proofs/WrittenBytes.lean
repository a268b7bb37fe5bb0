import FeatureToggles.Proofs.TokenText
import FeatureToggles.Proofs.Utf8Text

/-!
# Bytes of written values

The text that is written for a value is ASCII, since surrogates are escaped like all else that is not. So it
always has bytes, whatever the texts within the value are.
-/

namespace FeatureToggles.Json

open CodePoint (char)
open Decimal (Layout Numeral digitChar exponentText floatText intText)
open Text (hexDigit hexFixed)

/-- Whether there are no surrogates among code points. -/
def NoSurrogates (cs : List CodePoint) : Prop :=
  ∀ c ∈ cs, c.isSurrogate = false

variable {cs ds : List CodePoint}

theorem noSurrogates_map_char (cs : List Char) : NoSurrogates (cs.map char) := by
  intro c hc
  obtain ⟨c, -, rfl⟩ := List.mem_map.1 hc
  rfl

theorem noSurrogates_cons {c : Char} (h : NoSurrogates cs) : NoSurrogates (char c :: cs) :=
  List.forall_mem_cons.2 ⟨rfl, h⟩

theorem NoSurrogates.append (hcs : NoSurrogates cs) (hds : NoSurrogates ds) : NoSurrogates (cs ++ ds) :=
  List.forall_mem_append.2 ⟨hcs, hds⟩

theorem NoSurrogates.enclosed {c d : Char} (h : NoSurrogates cs) :
    NoSurrogates (char c :: (cs ++ [char d])) :=
  noSurrogates_cons (h.append (noSurrogates_map_char [d]))

/-! ### Numbers -/

theorem noSurrogates_map_digitChar {values : List ℕ} (h : ∀ d ∈ values, d < 10) :
    NoSurrogates (values.map digitChar) := by
  have hall : ∀ d : Fin 10, (digitChar d.val).isSurrogate = false := by decide
  intro c hc
  obtain ⟨d, hd, rfl⟩ := List.mem_map.1 hc
  exact hall ⟨d, h d hd⟩

theorem noSurrogates_powerText (exponent : Option ℤ) : NoSurrogates (Numeral.powerText exponent) := by
  cases exponent with
  | none => exact noSurrogates_map_char []
  | some e =>
    obtain ⟨values, -, hvalues, -, htext⟩ := exists_exponentDigits e
    have hdigits := noSurrogates_map_digitChar hvalues
    show NoSurrogates (char 'e' :: exponentText e)
    rw [htext]
    split
    · exact noSurrogates_cons (noSurrogates_cons hdigits)
    · exact noSurrogates_cons (noSurrogates_cons hdigits)

theorem noSurrogates_signText (negative : Bool) : NoSurrogates (Numeral.signText negative) := by
  cases negative with
  | true => exact noSurrogates_map_char ['-']
  | false => exact noSurrogates_map_char []

theorem noSurrogates_numeral {x : Numeral} (hx : x.Proper) : NoSurrogates x.text := by
  have hfraction : NoSurrogates (Numeral.fractionText x.fraction) := by
    unfold Numeral.fractionText
    split
    · exact noSurrogates_map_char []
    · exact noSurrogates_cons (noSurrogates_map_digitChar hx.fraction_lt)
  exact (noSurrogates_signText x.negative).append
    ((noSurrogates_map_digitChar hx.whole_lt).append (hfraction.append (noSurrogates_powerText x.exponent)))

theorem noSurrogates_intText (n : ℤ) : NoSurrogates (intText n) := by
  rw [← Numeral.text_ofInt]
  exact noSurrogates_numeral (Numeral.proper_ofInt n)

theorem noSurrogates_floatText (x : Binary64) : NoSurrogates (floatText Layout.json x) := by
  cases x with
  | nan => exact noSurrogates_map_char "NaN".toList
  | number negative rank =>
    rcases Nat.lt_or_ge rank.val infinityRank with hfinite | hinfinite
    · obtain ⟨numeral, hproper, -, htext, -⟩ := Numeral.spells_floatText negative hfinite
      rw [← htext]
      exact noSurrogates_numeral hproper
    · have hrank : rank.val = infinityRank :=
        Nat.le_antisymm (Nat.le_of_lt_succ rank.isLt) hinfinite
      rw [floatText, if_pos hrank]
      cases negative with
      | true => exact noSurrogates_map_char "-Infinity".toList
      | false => exact noSurrogates_map_char "Infinity".toList

/-! ### Strings -/

theorem noSurrogates_unitEscape (n : ℕ) : NoSurrogates (unitEscape n) := by
  have hall : ∀ d : Fin 16, (hexDigit d.val).isSurrogate = false := by decide
  have hdigits (width n : ℕ) : NoSurrogates (hexFixed width n) := by
    induction width generalizing n with
    | zero => exact noSurrogates_map_char []
    | succ width ih =>
      exact (ih _).append (List.forall_mem_singleton.2 (hall ⟨n % 16, Nat.mod_lt n (by decide)⟩))
  exact noSurrogates_cons (noSurrogates_cons (hdigits 4 n))

theorem noSurrogates_charText (c : CodePoint) : NoSurrogates (charText c) := by
  cases c with
  | char c =>
    unfold charText
    repeat' split
    all_goals first
      | exact noSurrogates_map_char [_]
      | exact noSurrogates_map_char [_, _]
      | exact noSurrogates_unitEscape _
      | exact (noSurrogates_unitEscape _).append (noSurrogates_unitEscape _)
  | surrogate n =>
    have hnumber : (CodePoint.surrogate n).toNat = 0xd800 + n.val := rfl
    have hescape : charText (.surrogate n) = unitEscape (CodePoint.surrogate n).toNat := by
      unfold charText
      simp only [reduceCtorEq, or_self, if_false]
      rw [if_neg (by omega), if_neg (by omega), if_pos (by omega)]
    rw [hescape]
    exact noSurrogates_unitEscape _

theorem noSurrogates_stringText (s : Text) : NoSurrogates (stringText s) := by
  refine NoSurrogates.enclosed fun c hc => ?_
  obtain ⟨d, -, hc⟩ := List.mem_flatMap.1 hc
  exact noSurrogates_charText d c hc

/-! ### Values -/

theorem NoSurrogates.field {name : Text} (h : NoSurrogates cs) :
    NoSurrogates (stringText name ++ char ':' :: char ' ' :: cs) :=
  (noSurrogates_stringText name).append (noSurrogates_cons (noSurrogates_cons h))

theorem NoSurrogates.listed (hcs : NoSurrogates cs) (hds : NoSurrogates ds) :
    NoSurrogates (cs ++ char ',' :: char ' ' :: ds) :=
  hcs.append (noSurrogates_cons (noSurrogates_cons hds))

mutual

theorem noSurrogates_textChars : ∀ value : Json, NoSurrogates value.textChars
  | .null => noSurrogates_map_char "null".toList
  | .bool true => noSurrogates_map_char "true".toList
  | .bool false => noSurrogates_map_char "false".toList
  | .int n => noSurrogates_intText n
  | .float x => noSurrogates_floatText x
  | .string s => noSurrogates_stringText s
  | .array items => (noSurrogates_itemsText items).enclosed
  | .object fields => (noSurrogates_fieldsText fields).enclosed

theorem noSurrogates_itemsText : ∀ items : List Json, NoSurrogates (itemsText items)
  | [] => noSurrogates_map_char []
  | [item] => noSurrogates_textChars item
  | item :: next :: rest =>
    (noSurrogates_textChars item).listed (noSurrogates_itemsText (next :: rest))

theorem noSurrogates_fieldsText : ∀ fields : List (Text × Json), NoSurrogates (fieldsText fields)
  | [] => noSurrogates_map_char []
  | [(_, value)] => (noSurrogates_textChars value).field
  | (_, value) :: next :: rest =>
    ((noSurrogates_textChars value).listed (noSurrogates_fieldsText (next :: rest))).field

end

/-- What is written for a value has bytes. -/
theorem exists_utf8?_write (value : Json) : ∃ bytes, value.write.utf8? = some bytes :=
  Option.isSome_iff_exists.1 (Text.isSome_encodeUtf8_iff.2 (noSurrogates_textChars value))

end FeatureToggles.Json
