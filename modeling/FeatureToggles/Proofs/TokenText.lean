import FeatureToggles.Json.Token
import FeatureToggles.Json.Writer
import FeatureToggles.Proofs.NumberText

/-!
# JSON tokens read back

The written form of a number, of a string and of a word is read as one token, which holds what was
written, and reading goes on right after it.
-/

namespace FeatureToggles.Json

open CodePoint (char)

open Decimal.Numeral (fractionText powerText signText)
open Decimal (Numeral Layout digitChar digitValue exponentAt exponentText floatText intText
  maxIntegerDigits natText signAt)

/-! ### Digits -/

/-- The text does not go on with a digit. -/
def EndsDigits (rest : List CodePoint) : Prop :=
  ∀ c ∈ rest.head?, c.isDigit = false

/-- The text does not go on with anything that could belong to a number. -/
def EndsNumber (rest : List CodePoint) : Prop :=
  ∀ c ∈ rest.head?, c.isDigit = false ∧ c ≠ char '.' ∧ c ≠ char 'e' ∧ c ≠ char 'E'

theorem EndsNumber.endsDigits {rest : List CodePoint} (h : EndsNumber rest) : EndsDigits rest :=
  fun c hc => (h c hc).1

theorem isDigit_digitChar {d : ℕ} (h : d < 10) : (digitChar d).isDigit = true := by
  have hall : ∀ d : Fin 10, (digitChar d.val).isDigit = true := by decide
  exact hall ⟨d, h⟩

theorem digitValue_digitChar {d : ℕ} (h : d < 10) : digitValue (digitChar d) = d := by
  have hall : ∀ d : Fin 10, digitValue (digitChar d.val) = d.val := by decide
  exact hall ⟨d, h⟩

variable {ds : List ℕ} {rest : List CodePoint}

theorem map_digitValue_digitChar (h : ∀ d ∈ ds, d < 10) : (ds.map digitChar).map digitValue = ds := by
  rw [List.map_map]
  exact (List.map_congr_left fun d hd => digitValue_digitChar (h d hd)).trans (List.map_id ds)

theorem span_digits (hds : ∀ d ∈ ds, d < 10) (hrest : EndsDigits rest) :
    (ds.map digitChar ++ rest).takeWhile CodePoint.isDigit = ds.map digitChar ∧
      (ds.map digitChar ++ rest).dropWhile CodePoint.isDigit = rest := by
  have hall : ∀ c ∈ ds.map digitChar, c.isDigit = true := by
    intro c hc
    obtain ⟨d, hd, rfl⟩ := List.mem_map.1 hc
    exact isDigit_digitChar (hds d hd)
  exact Text.span_append hall hrest

/-! ### Numbers -/

variable {x : Numeral}

theorem minusAt_signText (negative : Bool) {cs : List CodePoint} (h : ∀ c ∈ cs.head?, c ≠ char '-') :
    minusAt (signText negative ++ cs) = (negative, cs) := by
  cases negative with
  | true => rfl
  | false =>
    rw [signText, if_neg Bool.false_ne_true, List.nil_append, minusAt]
    rintro _ rfl
    exact h '-' rfl rfl

theorem wholeAt_text (hx : x.Proper) (hrest : EndsDigits rest) :
    wholeAt (x.whole.map digitChar ++ rest) = (x.whole.map digitChar, rest) := by
  rcases hx.whole_head with hzero | hhead
  · rw [hzero]
    rfl
  · obtain ⟨htake, hdrop⟩ := span_digits hx.whole_lt hrest
    rw [wholeAt, htake, hdrop]
    -- only the numeral zero starts with a zero
    intro after hafter
    cases hwhole : x.whole with
    | nil => exact hx.whole_ne_nil hwhole
    | cons d ds =>
      rw [hwhole, List.map_cons, List.cons_append, List.cons.injEq] at hafter
      have hd : d < 10 := hx.whole_lt d (by simp [hwhole])
      have hvalue : d = 0 := by
        rw [← digitValue_digitChar hd, hafter.1]
        rfl
      rw [hwhole, hvalue] at hhead
      exact hhead rfl

theorem fractionAt_text (hds : ∀ d ∈ ds, d < 10) (hrest : EndsDigits rest)
    (hpoint : ∀ c ∈ rest.head?, c ≠ char '.') :
    fractionAt (fractionText ds ++ rest) = (ds.map digitChar, rest) := by
  cases ds with
  | nil =>
    have hnil : fractionText [] = [] := rfl
    rw [hnil, List.nil_append, fractionAt]
    · rfl
    · rintro after rfl
      exact hpoint '.' rfl rfl
  | cons d ds =>
    obtain ⟨htake, hdrop⟩ := span_digits hds hrest
    rw [fractionText, if_neg (by simp), List.cons_append, fractionAt, htake, hdrop]
    rfl

theorem ofDigits_zero_cons (ds : List ℕ) : Decimal.ofDigits (0 :: ds) = Decimal.ofDigits ds := rfl

/-- The digits of an exponent, at least two of them. -/
theorem exists_exponentDigits (e : ℤ) :
    ∃ ds : List ℕ, ds ≠ [] ∧ (∀ d ∈ ds, d < 10) ∧ Decimal.ofDigits ds = e.natAbs ∧
      exponentText e = (if e < 0 then char '-' else char '+') :: ds.map digitChar := by
  have hlt : ∀ d ∈ Decimal.digits e.natAbs, d < 10 := fun _ => Decimal.lt_ten_of_mem_digits
  by_cases hshort : (natText e.natAbs).length < 2
  · refine ⟨0 :: Decimal.digits e.natAbs, List.cons_ne_nil _ _, ?_, ?_, ?_⟩
    · intro d hd
      rcases List.mem_cons.1 hd with rfl | hd
      · omega
      · exact hlt d hd
    · rw [ofDigits_zero_cons, Decimal.ofDigits_digits]
    · rw [exponentText, if_pos hshort]
      rfl
  · refine ⟨Decimal.digits e.natAbs, Decimal.digits_ne_nil _, hlt, Decimal.ofDigits_digits _, ?_⟩
    rw [exponentText, if_neg hshort]
    rfl

theorem exponentAt_text (exponent : Option ℤ) (hrest : EndsNumber rest) :
    exponentAt (powerText exponent ++ rest) = (exponent, rest) := by
  cases exponent with
  | none =>
    cases rest with
    | nil => rfl
    | cons c rest =>
      obtain ⟨-, -, he, hE⟩ := hrest c rfl
      simp [powerText, exponentAt, he, hE]
  | some e =>
    obtain ⟨ds, hne, hds, hvalue, htext⟩ := exists_exponentDigits e
    obtain ⟨htake, hdrop⟩ := span_digits hds hrest.endsDigits
    have hsign : signAt (exponentText e ++ rest) = (decide (e < 0), ds.map digitChar ++ rest) := by
      rw [htext]
      by_cases he : e < 0 <;> simp [he, signAt]
    have hnonempty : (ds.map digitChar).isEmpty = false := by
      cases ds with
      | nil => exact absurd rfl hne
      | cons d ds => rfl
    -- the sign stands for itself, and the digits for the size
    have hnumber : (if e < 0 then -(e.natAbs : ℤ) else (e.natAbs : ℤ)) = e := by
      split <;> omega
    simp only [powerText, Option.elim_some, List.cons_append, exponentAt, hsign, htake, hdrop,
      hnonempty, map_digitValue_digitChar hds, hvalue]
    simpa using hnumber

theorem endsDigits_powerText (exponent : Option ℤ) (hrest : EndsNumber rest) :
    EndsDigits (powerText exponent ++ rest) ∧ ∀ c ∈ (powerText exponent ++ rest).head?, c ≠ char '.' := by
  cases exponent with
  | none => exact ⟨hrest.endsDigits, fun c hc => (hrest c hc).2.1⟩
  | some e =>
    constructor
    · rintro c ⟨⟩
      rfl
    · rintro c ⟨⟩
      decide

theorem endsDigits_fractionText (fraction : List ℕ) {cs : List CodePoint} (hcs : EndsDigits cs) :
    EndsDigits (fractionText fraction ++ cs) := by
  cases fraction with
  | nil => exact hcs
  | cons d ds =>
    rintro c ⟨⟩
    rfl

/-- A numeral starts with a digit, behind its sign. -/
theorem exists_head_whole (hx : x.Proper) (cs : List CodePoint) :
    ∃ c after, x.whole.map digitChar ++ cs = c :: after ∧ c.isDigit = true := by
  cases hwhole : x.whole with
  | nil => exact absurd hwhole hx.whole_ne_nil
  | cons d ds => exact ⟨_, _, rfl, isDigit_digitChar (hx.whole_lt d (by simp [hwhole]))⟩

theorem text_append (x : Numeral) (rest : List CodePoint) :
    x.text ++ rest = signText x.negative
      ++ (x.whole.map digitChar ++ (fractionText x.fraction ++ (powerText x.exponent ++ rest))) := by
  rw [Numeral.text, List.append_assoc, List.append_assoc, List.append_assoc]

/-- What a numeral stands for in JSON: an integer, unless it has a point or an exponent. -/
def numeralToken (x : Numeral) (rest : List CodePoint) : Token × List CodePoint :=
  if x.fraction.isEmpty && x.exponent.isNone then
    match x.toInt? with
    | some n => (.scalar (.int n), rest)
    | none => (.unreadable .hugeInteger, [])
  else (.scalar (.float x.toBinary64), rest)

/-- A numeral reads back whole, as far as its integer is not too long. -/
theorem numberAt_text (hx : x.Proper) (hrest : EndsNumber rest) :
    numberAt (x.text ++ rest) = numeralToken x rest := by
  -- from the end to the start: each part is read up to where the next one begins
  have hpower := exponentAt_text x.exponent hrest
  obtain ⟨hends, hpoint⟩ := endsDigits_powerText x.exponent hrest
  have hfraction := fractionAt_text hx.fraction_lt hends hpoint
  have hwhole := wholeAt_text hx (endsDigits_fractionText x.fraction hends)
  have hsign : minusAt (signText x.negative
      ++ (x.whole.map digitChar ++ (fractionText x.fraction ++ (powerText x.exponent ++ rest))))
      = (x.negative,
        x.whole.map digitChar ++ (fractionText x.fraction ++ (powerText x.exponent ++ rest))) := by
    apply minusAt_signText
    obtain ⟨c, after, hcs, hc⟩ :=
      exists_head_whole hx (fractionText x.fraction ++ (powerText x.exponent ++ rest))
    rw [hcs]
    rintro _ ⟨⟩ rfl
    cases hc
  have hne : (x.whole.map digitChar).isEmpty = false := by
    simp [hx.whole_ne_nil]
  simp only [numberAt, text_append, hsign, hwhole, hfraction, hpower, hne,
    map_digitValue_digitChar hx.whole_lt, map_digitValue_digitChar hx.fraction_lt, numeralToken,
    List.isEmpty_map]
  rfl

/-! ### Tokens -/

theorem ne_of_isDigit {c d : CodePoint} (hc : c.isDigit = true) (hd : d.isDigit = false) : c ≠ d := by
  rintro rfl
  rw [hc] at hd
  cases hd

/-- The characters with which the words start, two of each. -/
def wordStarts : List CodePoint :=
  [char 'n', 'u', 't', 'r', 'f', 'a', 'N', 'a', 'I', 'n', '-', 'I']

theorem wordStarts_eq : words.flatMap (·.1.take 2) = wordStarts :=
  rfl

/-- No word stands where a character comes first, or behind another one, that is neither of the first two
of any word. -/
theorem wordAt?_eq_none_of_notMem {c : CodePoint} (h : c ∉ wordStarts) (before : Option CodePoint)
    (after : List CodePoint) : wordAt? (before.toList ++ c :: after) = none := by
  have hlong : ∀ w ∈ words, ∃ a b word, w.1 = a :: b :: word := by
    intro w hw
    simp only [words, List.mem_cons, List.not_mem_nil, or_false] at hw
    rcases hw with rfl | rfl | rfl | rfl | rfl | rfl <;> exact ⟨_, _, _, rfl⟩
  rw [wordAt?, List.findSome?_eq_none_iff]
  intro w hw
  obtain ⟨a, b, word, hword⟩ := hlong w hw
  have hnot : c ∉ w.1.take 2 := fun hmem => h (wordStarts_eq ▸ List.mem_flatMap_of_mem hw hmem)
  have hne : c ≠ a ∧ c ≠ b := by simpa [hword] using hnot
  have hstart : w.1.isPrefixOf (before.toList ++ c :: after) = false := by
    rw [hword]
    cases before <;> simp [List.isPrefixOf, hne.1.symm, hne.2.symm]
  simp [hstart]

/-- No word starts as a number does: neither of its first two characters is a digit. -/
theorem wordAt?_eq_none {c : CodePoint} (hc : c.isDigit = true) (negative : Bool) (after : List CodePoint) :
    wordAt? (signText negative ++ c :: after) = none := by
  have hletters : ∀ d ∈ wordStarts, d.isDigit = false := by simp [wordStarts]
  have hnot : c ∉ wordStarts := fun hmem => ne_of_isDigit hc (hletters c hmem) rfl
  cases negative with
  | true => exact wordAt?_eq_none_of_notMem hnot (some (char '-')) after
  | false => exact wordAt?_eq_none_of_notMem hnot none after

/-- A character that starts a number: a digit or a minus sign. -/
def StartsNumber (c : CodePoint) : Prop :=
  c.isDigit = true ∨ c = char '-'

theorem StartsNumber.ne {c d : CodePoint} (h : StartsNumber c) (hd : d.isDigit = false)
    (hminus : d ≠ char '-') : c ≠ d := by
  rcases h with hc | rfl
  · exact ne_of_isDigit hc hd
  · exact hminus.symm

theorem tokens_of_startsNumber {c : CodePoint} {cs : List CodePoint} (h : StartsNumber c)
    (hword : wordAt? (c :: cs) = none) :
    tokens (c :: cs) = (numberAt (c :: cs)).1 :: tokens (numberAt (c :: cs)).2 := by
  have hne (d : CodePoint) (hd : d.isDigit = false ∧ d ≠ char '-') : c ≠ d := h.ne hd.1 hd.2
  have hspace : isSpace c = false := by
    simp [isSpace, hne ' ' (by decide), hne '\t' (by decide), hne '\n' (by decide),
      hne '\r' (by decide)]
  have htoken : tokenAt c cs = numberAt (c :: cs) := by
    simp only [tokenAt, hne '[' (by decide), hne ']' (by decide), hne '\x7b' (by decide),
      hne '\x7d' (by decide), hne ',' (by decide), hne ':' (by decide), hne '\x22' (by decide),
      if_false, hword]
  rw [tokens, hspace, if_neg Bool.false_ne_true, htoken]

/-- The text of a numeral is one token. -/
theorem tokens_text (hx : x.Proper) (hrest : EndsNumber rest) :
    tokens (x.text ++ rest) = (numeralToken x rest).1 :: tokens (numeralToken x rest).2 := by
  obtain ⟨c, after, hcs, hc⟩ :=
    exists_head_whole hx (fractionText x.fraction ++ (powerText x.exponent ++ rest))
  have htext : x.text ++ rest = signText x.negative ++ c :: after := by
    rw [text_append, hcs]
  have hword := wordAt?_eq_none hc x.negative after
  have hstart : ∃ d cs, signText x.negative ++ c :: after = d :: cs ∧ StartsNumber d := by
    cases x.negative with
    | true => exact ⟨'-', c :: after, rfl, Or.inr rfl⟩
    | false => exact ⟨c, after, rfl, Or.inl hc⟩
  obtain ⟨d, cs, hd, hstart⟩ := hstart
  rw [← numberAt_text hx hrest, htext, hd]
  rw [hd] at hword
  exact tokens_of_startsNumber hstart hword

/-- An integer that is not too long reads back. -/
theorem tokens_intText {n : ℤ} (hn : (Decimal.digits n.natAbs).length ≤ maxIntegerDigits)
    (hrest : EndsNumber rest) : tokens (intText n ++ rest) = .scalar (.int n) :: tokens rest := by
  have hread := tokens_text (Numeral.proper_ofInt n) hrest
  rw [Numeral.text_ofInt] at hread
  rw [hread, numeralToken, Numeral.toInt?_ofInt hn]
  rfl

/-- A word reads back. -/
theorem tokens_word {w : List CodePoint × Json} (hw : w ∈ words) (rest : List CodePoint) :
    tokens (w.1 ++ rest) = .scalar w.2 :: tokens rest := by
  simp only [words, List.mem_cons, List.not_mem_nil, or_false] at hw
  rcases hw with rfl | rfl | rfl | rfl | rfl | rfl <;> simp [tokens, tokenAt, wordAt?, words, isSpace]

/-- Every binary64 number reads back. -/
theorem tokens_floatText (value : Binary64) (hrest : EndsNumber rest) :
    tokens (floatText Layout.json value ++ rest) = .scalar (.float value) :: tokens rest := by
  cases value with
  | nan => exact tokens_word (w := (("NaN" : Text).toList, .float .nan)) (by simp [words]) rest
  | number negative rank =>
    rcases Nat.lt_or_ge rank.val infinityRank with hfinite | hinfinite
    · obtain ⟨x, hx, hfloat, htext, hvalue⟩ := Numeral.spells_floatText negative hfinite
      have hnot : (x.fraction.isEmpty && x.exponent.isNone) = false := by
        rcases hfloat with hfraction | hexponent
        · simp [hfraction]
        · rw [Option.isNone_eq_false_iff.2 (Option.isSome_iff_ne_none.2 hexponent), Bool.and_false]
      rw [← htext, tokens_text hx hrest, numeralToken, hnot, if_neg Bool.false_ne_true, hvalue]
    · -- above the finite magnitudes there is one more, which is written as a word
      have hrank : rank = ⟨infinityRank, Nat.lt_succ_self _⟩ :=
        Fin.ext (Nat.le_antisymm (Nat.le_of_lt_succ rank.isLt) hinfinite)
      rw [hrank]
      cases negative with
      | true =>
        exact tokens_word (w := (("-Infinity" : Text).toList, .float (.infinity true))) (by simp [words]) rest
      | false =>
        exact tokens_word (w := (("Infinity" : Text).toList, .float (.infinity false))) (by simp [words]) rest

end FeatureToggles.Json
