import FeatureToggles.Proofs.JsonText

/-!
# Texts of the JSON standard

The grammar of the standard, which has no words for numbers that are not finite:

    element  ::= ws value ws
    value    ::= 'null' | 'true' | 'false' | number | string | '[' ws ']' | '[' elements ']'
               | '{' ws '}' | '{' members '}'
    elements ::= element (',' element)*
    members  ::= ws string ws ':' element (',' ws string ws ':' element)*

The text that is written for a value is of this grammar exactly if all numbers within are finite.
-/

namespace FeatureToggles.Json

open CodePoint (char)

open Decimal (Layout Numeral digitChar exponentText floatText intText)
open Text (hexDigit hexFixed hexValue?)

/-! ### The grammar -/

namespace Standard

/-- At least one digit. -/
structure IsDigits (cs : List CodePoint) : Prop where
  ne_nil : cs ≠ []
  isDigit : ∀ c ∈ cs, c.isDigit = true

/-- The digits of a number before its point: no zero stands in front of others. -/
inductive IsWhole : List CodePoint → Prop
  | zero : IsWhole [char '0']
  | digits {cs : List CodePoint} (h : IsDigits cs) (hhead : cs.head? ≠ some (char '0')) : IsWhole cs

/-- A point and digits behind it, or nothing. -/
inductive IsFraction : List CodePoint → Prop
  | absent : IsFraction []
  | digits {cs : List CodePoint} (h : IsDigits cs) : IsFraction (char '.' :: cs)

/-- A letter, perhaps a sign, and digits, or nothing. -/
inductive IsPower : List CodePoint → Prop
  | absent : IsPower []
  | digits {letter : CodePoint} {sign cs : List CodePoint} (hletter : letter = char 'e' ∨ letter = char 'E')
    (hsign : sign = [] ∨ sign = [char '+'] ∨ sign = [char '-']) (h : IsDigits cs) :
    IsPower (letter :: (sign ++ cs))

/-- A number. -/
inductive IsNumber : List CodePoint → Prop
  | parts {sign whole fraction power : List CodePoint} (hsign : sign = [] ∨ sign = [char '-'])
    (hwhole : IsWhole whole) (hfraction : IsFraction fraction) (hpower : IsPower power) :
    IsNumber (sign ++ (whole ++ (fraction ++ power)))

/-- What stands for one character, or for one of its units, between the quotes of a string. -/
inductive IsCharacter : List CodePoint → Prop
  | plain {c : CodePoint} (hcontrol : 0x20 ≤ c.toNat) (hquote : c ≠ char '\x22') (hslash : c ≠ char '\\') :
    IsCharacter [c]
  | escape {c : CodePoint} (h : c ∈ [char '\x22', '\\', '/', 'b', 'f', 'n', 'r', 't']) :
    IsCharacter [char '\\', c]
  | unit {ds : List CodePoint} (hlength : ds.length = 4) (h : ∀ d ∈ ds, (hexValue? d).isSome = true) :
    IsCharacter (char '\\' :: char 'u' :: ds)

/-- What stands between the quotes of a string. -/
inductive IsContent : List CodePoint → Prop
  | nil : IsContent []
  | cons {cs rest : List CodePoint} (h : IsCharacter cs) (hrest : IsContent rest) : IsContent (cs ++ rest)

/-- A string with its quotes. -/
inductive IsString : List CodePoint → Prop
  | quoted {cs : List CodePoint} (h : IsContent cs) : IsString (char '\x22' :: (cs ++ [char '\x22']))

/-- White space, or nothing. -/
def IsBlank (cs : List CodePoint) : Prop :=
  ∀ c ∈ cs, isSpace c = true

/-- The symbols of the grammar. -/
inductive Symbol where
  | element
  | value
  | elements
  | members

/-- `Derives symbol cs`: the characters are of the form that the symbol stands for. -/
inductive Derives : Symbol → List CodePoint → Prop
  | element {before cs after : List CodePoint} (hbefore : IsBlank before) (h : Derives .value cs)
    (hafter : IsBlank after) : Derives .element (before ++ (cs ++ after))
  | null : Derives .value ("null" : Text).toList
  | true : Derives .value ("true" : Text).toList
  | false : Derives .value ("false" : Text).toList
  | number {cs : List CodePoint} (h : IsNumber cs) : Derives .value cs
  | string {cs : List CodePoint} (h : IsString cs) : Derives .value cs
  | emptyArray {cs : List CodePoint} (h : IsBlank cs) : Derives .value (char '[' :: (cs ++ [char ']']))
  | array {cs : List CodePoint} (h : Derives .elements cs) : Derives .value (char '[' :: (cs ++ [char ']']))
  | emptyObject {cs : List CodePoint} (h : IsBlank cs) : Derives .value (char '\x7b' :: (cs ++ [char '\x7d']))
  | object {cs : List CodePoint} (h : Derives .members cs) :
    Derives .value (char '\x7b' :: (cs ++ [char '\x7d']))
  | lastElement {cs : List CodePoint} (h : Derives .element cs) : Derives .elements cs
  | elements {cs rest : List CodePoint} (h : Derives .element cs) (hrest : Derives .elements rest) :
    Derives .elements (cs ++ char ',' :: rest)
  | lastMember {before name after cs : List CodePoint} (hbefore : IsBlank before) (hname : IsString name)
    (hafter : IsBlank after) (h : Derives .element cs) :
    Derives .members (before ++ (name ++ (after ++ char ':' :: cs)))
  | members {before name after cs rest : List CodePoint} (hbefore : IsBlank before) (hname : IsString name)
    (hafter : IsBlank after) (h : Derives .element cs) (hrest : Derives .members rest) :
    Derives .members (before ++ (name ++ (after ++ char ':' :: (cs ++ char ',' :: rest))))

/-- A JSON text. -/
def IsText (cs : List CodePoint) : Prop :=
  Derives .element cs

/-! ### What is written is of the grammar -/

theorem isBlank_nil : IsBlank [] :=
  fun _ h => absurd h List.not_mem_nil

theorem isDigits_map_digitChar {ds : List ℕ} (hne : ds ≠ []) (hds : ∀ d ∈ ds, d < 10) :
    IsDigits (ds.map digitChar) := by
  constructor
  · simpa using hne
  · intro c hc
    obtain ⟨d, hd, rfl⟩ := List.mem_map.1 hc
    exact isDigit_digitChar (hds d hd)

theorem isWhole_text {x : Numeral} (hx : x.Proper) : IsWhole (x.whole.map digitChar) := by
  have hdigits := isDigits_map_digitChar hx.whole_ne_nil hx.whole_lt
  rcases hx.whole_head with hzero | hhead
  · rw [hzero]
    exact .zero
  · refine .digits hdigits ?_
    intro hzero
    rw [List.head?_map, Option.map_eq_some_iff] at hzero
    obtain ⟨d, hd, hdigit⟩ := hzero
    have hd10 : d < 10 := hx.whole_lt d (List.mem_of_mem_head? hd)
    have hvalue : Decimal.digitValue (digitChar d) = d := digitValue_digitChar hd10
    rw [hdigit] at hvalue
    rw [hd, ← hvalue] at hhead
    exact hhead rfl

theorem isFraction_text {fraction : List ℕ} (h : ∀ d ∈ fraction, d < 10) :
    IsFraction (Numeral.fractionText fraction) := by
  unfold Numeral.fractionText
  split
  · exact .absent
  · next hne =>
    have hne' : fraction ≠ [] := by simpa using hne
    exact .digits (isDigits_map_digitChar hne' h)

theorem isPower_text (exponent : Option ℤ) : IsPower (Numeral.powerText exponent) := by
  cases exponent with
  | none => exact .absent
  | some e =>
    obtain ⟨ds, hne, hds, -, htext⟩ := exists_exponentDigits e
    have hdigits := isDigits_map_digitChar hne hds
    show IsPower (char 'e' :: exponentText e)
    rw [htext]
    by_cases he : e < 0
    · rw [if_pos he]
      show IsPower (char 'e' :: ([char '-'] ++ ds.map digitChar))
      exact .digits (.inl rfl) (.inr (.inr rfl)) hdigits
    · rw [if_neg he]
      show IsPower (char 'e' :: ([char '+'] ++ ds.map digitChar))
      exact .digits (.inl rfl) (.inr (.inl rfl)) hdigits

/-- A numeral is a number of the grammar. -/
theorem isNumber_text {x : Numeral} (hx : x.Proper) : IsNumber x.text := by
  have hsign : Numeral.signText x.negative = [] ∨ Numeral.signText x.negative = [char '-'] := by
    cases x.negative
    · exact .inl rfl
    · exact .inr rfl
  exact .parts hsign (isWhole_text hx) (isFraction_text hx.fraction_lt) (isPower_text x.exponent)

theorem derives_intText (n : ℤ) : Derives .value (intText n) := by
  rw [← Numeral.text_ofInt]
  exact .number (isNumber_text (Numeral.proper_ofInt n))

/-- A finite number is written as a number of the grammar. -/
theorem derives_floatText {x : Binary64} (h : x.isFinite = true) :
    Derives .value (floatText Layout.json x) := by
  cases x with
  | nan => cases h
  | number negative rank =>
    have hrank : rank.val < infinityRank := by simpa [Binary64.isFinite] using h
    obtain ⟨numeral, hproper, -, htext, -⟩ := Numeral.spells_floatText negative hrank
    rw [← htext]
    exact .number (isNumber_text hproper)

theorem isSome_hexValue?_of_mem_hexFixed {width n : ℕ} {d : CodePoint} (h : d ∈ hexFixed width n) :
    (hexValue? d).isSome = true := by
  induction width generalizing n with
  | zero => cases h
  | succ width ih =>
    rw [hexFixed, List.mem_append, List.mem_singleton] at h
    rcases h with h | h
    · exact ih h
    · rw [h, Text.hexValue?_hexDigit (Nat.mod_lt n (by decide))]
      rfl

theorem isCharacter_unitEscape (n : ℕ) : IsCharacter (unitEscape n) :=
  .unit (Text.length_hexFixed 4 n) fun _ => isSome_hexValue?_of_mem_hexFixed

theorem isContent_of_isCharacter {cs : List CodePoint} (h : IsCharacter cs) : IsContent cs := by
  rw [← List.append_nil cs]
  exact .cons h .nil

/-- Every character is written as one or two characters of the grammar. -/
theorem isContent_charText (c : CodePoint) : IsContent (charText c) := by
  have hescape (e : CodePoint) (he : e ∈ [char '\x22', '\\', '/', 'b', 'f', 'n', 'r', 't']) :
      IsContent [char '\\', e] :=
    isContent_of_isCharacter (.escape he)
  have hunit (n : ℕ) : IsContent (unitEscape n) := isContent_of_isCharacter (isCharacter_unitEscape n)
  -- the cases are those of the written form, in their order
  unfold charText
  split
  · next h =>
    apply hescape
    rcases h with rfl | rfl <;> decide
  split
  · exact hescape 'n' (by decide)
  split
  · exact hescape 'r' (by decide)
  split
  · exact hescape 't' (by decide)
  split
  · exact hescape 'b' (by decide)
  split
  · exact hescape 'f' (by decide)
  split
  · exact hunit _
  split
  · next hquote _ _ _ _ _ hlow _ =>
    rw [not_or] at hquote
    exact isContent_of_isCharacter (.plain (Nat.not_lt.1 hlow) hquote.1 hquote.2)
  split
  · exact hunit _
  · exact .cons (isCharacter_unitEscape _) (hunit _)

theorem IsContent.append {cs ds : List CodePoint} (hcs : IsContent cs) (hds : IsContent ds) :
    IsContent (cs ++ ds) := by
  induction hcs with
  | nil => exact hds
  | cons h _ ih =>
    rw [List.append_assoc]
    exact .cons h ih

theorem isString_stringText (s : Text) : IsString (stringText s) := by
  have hcontent : IsContent (s.toList.flatMap charText) := by
    induction s.toList with
    | nil => exact .nil
    | cons c cs ih =>
      rw [List.flatMap_cons]
      exact (isContent_charText c).append ih
  exact .quoted hcontent

theorem derives_element {cs : List CodePoint} (h : Derives .value cs) : Derives .element cs := by
  have helement := Derives.element isBlank_nil h isBlank_nil
  rwa [List.nil_append, List.append_nil] at helement

theorem IsBlank.cons_space {cs : List CodePoint} (h : IsBlank cs) : IsBlank (char ' ' :: cs) :=
  List.forall_mem_cons.2 ⟨rfl, h⟩

theorem Derives.element_space {cs : List CodePoint} (h : Derives .element cs) :
    Derives .element (char ' ' :: cs) := by
  cases h with
  | element hbefore h hafter => exact .element hbefore.cons_space h hafter

/-- A space may stand in front of elements. -/
theorem Derives.elements_space {cs : List CodePoint} (h : Derives .elements cs) :
    Derives .elements (char ' ' :: cs) := by
  cases h with
  | lastElement h => exact .lastElement h.element_space
  | elements h hrest => exact .elements h.element_space hrest

/-- A space may stand in front of members. -/
theorem Derives.members_space {cs : List CodePoint} (h : Derives .members cs) :
    Derives .members (char ' ' :: cs) := by
  cases h with
  | lastMember hbefore hname hafter h => exact .lastMember hbefore.cons_space hname hafter h
  | members hbefore hname hafter h hrest => exact .members hbefore.cons_space hname hafter h hrest

mutual

/-- A value whose numbers are finite is written as a value of the grammar. -/
theorem derives_textChars : ∀ value : Json, value.isStandard = true → Derives .value value.textChars
  | .null, _ => .null
  | .bool true, _ => .true
  | .bool false, _ => .false
  | .int n, _ => derives_intText n
  | .float _, h => derives_floatText h
  | .string s, _ => .string (isString_stringText s)
  | .array [], _ => .emptyArray isBlank_nil
  | .array (item :: rest), h => .array (derives_itemsText (item :: rest) h (List.cons_ne_nil _ _))
  | .object [], _ => .emptyObject isBlank_nil
  | .object (field :: rest), h => .object (derives_fieldsText (field :: rest) h (List.cons_ne_nil _ _))

theorem derives_itemsText : ∀ items : List Json, itemsStandard items = true → items ≠ [] →
    Derives .elements (itemsText items)
  | [], _, hne => absurd rfl hne
  | [item], h, _ => by
    rw [itemsStandard, Bool.and_eq_true] at h
    exact .lastElement (derives_element (derives_textChars item h.1))
  | item :: next :: rest, h, _ => by
    rw [itemsStandard, Bool.and_eq_true] at h
    have hrest := derives_itemsText (next :: rest) h.2 (List.cons_ne_nil _ _)
    exact .elements (derives_element (derives_textChars item h.1)) hrest.elements_space

theorem derives_fieldsText : ∀ fields : List (Text × Json),
    fieldsStandard fields = true → fields ≠ [] → Derives .members (fieldsText fields)
  | [], _, hne => absurd rfl hne
  | [(name, value)], h, _ => by
    rw [fieldsStandard, Bool.and_eq_true] at h
    have hvalue := (derives_element (derives_textChars value h.1)).element_space
    exact .lastMember isBlank_nil (isString_stringText name) isBlank_nil hvalue
  | (name, value) :: next :: rest, h, _ => by
    rw [fieldsStandard, Bool.and_eq_true] at h
    have hvalue := (derives_element (derives_textChars value h.1)).element_space
    have hrest := derives_fieldsText (next :: rest) h.2 (List.cons_ne_nil _ _)
    exact .members isBlank_nil (isString_stringText name) isBlank_nil hvalue hrest.members_space

end

/-! ### Characters outside of strings -/

/-- Where a character of a text stands: outside of strings, inside, or behind a backslash. -/
inductive Place where
  | outside
  | inside
  | escaped

/-- The characters of a text that stand outside of strings, if the text starts in the given place. -/
def bare : Place → List CodePoint → List CodePoint
  | _, [] => []
  | .outside, c :: rest => if c = char '\x22' then bare .inside rest else c :: bare .outside rest
  | .inside, c :: rest =>
    if c = char '\x22' then bare .outside rest
    else if c = char '\\' then bare .escaped rest
    else bare .inside rest
  | .escaped, _ :: rest => bare .inside rest

/-- Whether characters start and end outside of strings and have the given ones there. -/
def Shows (cs shown : List CodePoint) : Prop :=
  ∀ rest, bare .outside (cs ++ rest) = shown ++ bare .outside rest

theorem Shows.append {cs ds shown more : List CodePoint} (hcs : Shows cs shown) (hds : Shows ds more) :
    Shows (cs ++ ds) (shown ++ more) := by
  intro rest
  rw [List.append_assoc, hcs, hds, List.append_assoc]

theorem Shows.unique {cs shown other : List CodePoint} (h : Shows cs shown) (hother : Shows cs other) :
    shown = other := by
  have hsame := (h []).symm.trans (hother [])
  simpa [bare] using hsame

/-- Without quotes there are no strings. -/
theorem shows_of_no_quote {cs : List CodePoint} (h : char '\x22' ∉ cs) : Shows cs cs := by
  intro rest
  induction cs with
  | nil => rfl
  | cons c cs ih =>
    rw [List.mem_cons, not_or] at h
    rw [List.cons_append, bare, if_neg (Ne.symm h.1), ih h.2, List.cons_append]

theorem bare_inside_cons {c : CodePoint} (hquote : c ≠ char '\x22') (hslash : c ≠ char '\\')
    (rest : List CodePoint) : bare .inside (c :: rest) = bare .inside rest := by
  rw [bare, if_neg hquote, if_neg hslash]

theorem bare_inside_digits {ds : List CodePoint} (h : ∀ d ∈ ds, (hexValue? d).isSome = true)
    (rest : List CodePoint) : bare .inside (ds ++ rest) = bare .inside rest := by
  induction ds with
  | nil => rfl
  | cons d ds ih =>
    obtain ⟨hd, hds⟩ := List.forall_mem_cons.1 h
    have hquote : d ≠ char '\x22' := by
      rintro rfl
      exact absurd hd (by decide)
    have hslash : d ≠ char '\\' := by
      rintro rfl
      exact absurd hd (by decide)
    rw [List.cons_append, bare_inside_cons hquote hslash, ih hds]

/-- What stands for a character does not end the string. -/
theorem bare_inside_character {cs : List CodePoint} (h : IsCharacter cs) (rest : List CodePoint) :
    bare .inside (cs ++ rest) = bare .inside rest := by
  cases h with
  | plain _ hquote hslash => exact bare_inside_cons hquote hslash rest
  | escape _ => rfl
  | unit _ hds => exact bare_inside_digits hds rest

theorem shows_string {cs : List CodePoint} (h : IsString cs) : Shows cs [] := by
  obtain ⟨hcontent⟩ := h
  intro rest
  show bare .inside (_ ++ [char '\x22'] ++ rest) = bare .outside rest
  rw [List.append_assoc]
  induction hcontent with
  | nil => rfl
  | cons hcharacter _ ih => rw [List.append_assoc, bare_inside_character hcharacter, ih]

/-- Whether characters have none of the letters outside of strings with which the words for numbers that
are not finite are written. -/
def IsQuiet (cs : List CodePoint) : Prop :=
  ∃ shown, Shows cs shown ∧ char 'N' ∉ shown ∧ char 'I' ∉ shown

theorem IsQuiet.append {cs ds : List CodePoint} (hcs : IsQuiet cs) (hds : IsQuiet ds) : IsQuiet (cs ++ ds) := by
  obtain ⟨shown, hshown, hn, hi⟩ := hcs
  obtain ⟨more, hmore, hn', hi'⟩ := hds
  refine ⟨shown ++ more, hshown.append hmore, ?_, ?_⟩
  · simp [hn, hn']
  · simp [hi, hi']

theorem isQuiet_of_forall {cs : List CodePoint} (h : ∀ c ∈ cs, c ≠ char '\x22' ∧ c ≠ char 'N' ∧ c ≠ char 'I') :
    IsQuiet cs := by
  refine ⟨cs, shows_of_no_quote ?_, ?_, ?_⟩
  · exact fun hmem => (h _ hmem).1 rfl
  · exact fun hmem => (h _ hmem).2.1 rfl
  · exact fun hmem => (h _ hmem).2.2 rfl

/-- Fixed characters are quiet if none of them is a quote or a letter that betrays. -/
theorem isQuiet_of_all {cs : List CodePoint}
    (h : (cs.all fun c => decide (c ≠ char '\x22' ∧ c ≠ char 'N' ∧ c ≠ char 'I')) = true) : IsQuiet cs := by
  apply isQuiet_of_forall
  intro c hc
  exact of_decide_eq_true (List.all_eq_true.1 h c hc)

theorem isQuiet_of_isBlank {cs : List CodePoint} (h : IsBlank cs) : IsQuiet cs := by
  apply isQuiet_of_forall
  intro c hc
  have hspace := h c hc
  refine ⟨?_, ?_, ?_⟩ <;> (rintro rfl; exact absurd hspace (by decide))

theorem isQuiet_of_isString {cs : List CodePoint} (h : IsString cs) : IsQuiet cs :=
  ⟨[], shows_string h, List.not_mem_nil, List.not_mem_nil⟩

theorem isQuiet_of_isDigits {cs : List CodePoint} (h : IsDigits cs) : IsQuiet cs := by
  apply isQuiet_of_forall
  intro c hc
  have hdigit := h.isDigit c hc
  refine ⟨?_, ?_, ?_⟩ <;> (rintro rfl; exact absurd hdigit (by decide))

theorem isQuiet_nil : IsQuiet [] :=
  isQuiet_of_isBlank isBlank_nil

theorem isQuiet_of_isWhole {cs : List CodePoint} (h : IsWhole cs) : IsQuiet cs := by
  cases h with
  | zero => exact isQuiet_of_all (by decide)
  | digits h _ => exact isQuiet_of_isDigits h

theorem isQuiet_of_isFraction {cs : List CodePoint} (h : IsFraction cs) : IsQuiet cs := by
  cases h with
  | absent => exact isQuiet_nil
  | digits h =>
    have hpoint : IsQuiet [char '.'] := isQuiet_of_all (by decide)
    exact hpoint.append (isQuiet_of_isDigits h)

theorem isQuiet_of_isPower {cs : List CodePoint} (h : IsPower cs) : IsQuiet cs := by
  cases h with
  | absent => exact isQuiet_nil
  | @digits letter sign ds hletter hsign h =>
    have hletter' : IsQuiet [letter] := by
      rcases hletter with rfl | rfl <;> exact isQuiet_of_all (by decide)
    have hsign' : IsQuiet sign := by
      rcases hsign with rfl | rfl | rfl <;> exact isQuiet_of_all (by decide)
    exact hletter'.append (hsign'.append (isQuiet_of_isDigits h))

theorem isQuiet_of_isNumber {cs : List CodePoint} (h : IsNumber cs) : IsQuiet cs := by
  cases h with
  | @parts sign _ _ _ hsign hwhole hfraction hpower =>
    have hsign' : IsQuiet sign := by
      rcases hsign with rfl | rfl <;> exact isQuiet_of_all (by decide)
    exact hsign'.append ((isQuiet_of_isWhole hwhole).append
      ((isQuiet_of_isFraction hfraction).append (isQuiet_of_isPower hpower)))

/-- The grammar has no words for numbers that are not finite. -/
theorem isQuiet_of_derives {symbol : Symbol} {cs : List CodePoint} (h : Derives symbol cs) : IsQuiet cs := by
  have hcomma : IsQuiet [char ','] := isQuiet_of_all (by decide)
  have hcolon : IsQuiet [char ':'] := isQuiet_of_all (by decide)
  induction h with
  | element hbefore _ hafter ih =>
    exact (isQuiet_of_isBlank hbefore).append (ih.append (isQuiet_of_isBlank hafter))
  | null => exact isQuiet_of_all (by decide)
  | true => exact isQuiet_of_all (by decide)
  | false => exact isQuiet_of_all (by decide)
  | number h => exact isQuiet_of_isNumber h
  | string h => exact isQuiet_of_isString h
  | emptyArray h =>
    have hopen : IsQuiet [char '['] := isQuiet_of_all (by decide)
    exact hopen.append ((isQuiet_of_isBlank h).append (isQuiet_of_all (by decide)))
  | array _ ih =>
    have hopen : IsQuiet [char '['] := isQuiet_of_all (by decide)
    exact hopen.append (ih.append (isQuiet_of_all (by decide)))
  | emptyObject h =>
    have hopen : IsQuiet [char '\x7b'] := isQuiet_of_all (by decide)
    exact hopen.append ((isQuiet_of_isBlank h).append (isQuiet_of_all (by decide)))
  | object _ ih =>
    have hopen : IsQuiet [char '\x7b'] := isQuiet_of_all (by decide)
    exact hopen.append (ih.append (isQuiet_of_all (by decide)))
  | lastElement _ ih => exact ih
  | elements _ _ ih ihrest => exact ih.append (hcomma.append ihrest)
  | lastMember hbefore hname hafter _ ih =>
    exact (isQuiet_of_isBlank hbefore).append ((isQuiet_of_isString hname).append
      ((isQuiet_of_isBlank hafter).append (hcolon.append ih)))
  | members hbefore hname hafter _ _ ih ihrest =>
    exact (isQuiet_of_isBlank hbefore).append ((isQuiet_of_isString hname).append
      ((isQuiet_of_isBlank hafter).append (hcolon.append (ih.append (hcomma.append ihrest)))))

/-! ### Only finite numbers are of the grammar -/

/-- Whether characters show, outside of strings, one of the letters of the words for numbers that are not
finite, unless the values that they stand for are standard. -/
def Betrays (cs : List CodePoint) (standard : Bool) : Prop :=
  ∃ shown, Shows cs shown ∧ (standard = false → char 'N' ∈ shown ∨ char 'I' ∈ shown)

theorem IsQuiet.betrays {cs : List CodePoint} (h : IsQuiet cs) : Betrays cs true := by
  obtain ⟨shown, hshown, -, -⟩ := h
  exact ⟨shown, hshown, fun hfalse => by cases hfalse⟩

theorem Betrays.append {cs ds : List CodePoint} {first second : Bool} (hcs : Betrays cs first)
    (hds : Betrays ds second) : Betrays (cs ++ ds) (first && second) := by
  obtain ⟨shown, hshown, hfirst⟩ := hcs
  obtain ⟨more, hmore, hsecond⟩ := hds
  refine ⟨shown ++ more, hshown.append hmore, fun hfalse => ?_⟩
  rw [Bool.and_eq_false_iff] at hfalse
  simp only [List.mem_append]
  rcases hfalse with hfalse | hfalse
  · have := hfirst hfalse
    tauto
  · have := hsecond hfalse
    tauto

/-- Characters that are quiet may stand on either side. -/
theorem Betrays.enclosed {cs before after : List CodePoint} {standard : Bool} (h : Betrays cs standard)
    (hbefore : IsQuiet before) (hafter : IsQuiet after) : Betrays (before ++ (cs ++ after)) standard := by
  have henclosed := hbefore.betrays.append (h.append hafter.betrays)
  rwa [Bool.and_true, Bool.true_and] at henclosed

theorem betrays_of_isStandard {value : Json} (h : value.isStandard = true) :
    Betrays value.textChars value.isStandard := by
  rw [h]
  exact (isQuiet_of_derives (derives_textChars value h)).betrays

/-- A number that is not finite is written as a word. -/
theorem betrays_floatText (x : Binary64) : Betrays (floatText Layout.json x) x.isFinite := by
  cases x with
  | nan => exact ⟨_, shows_of_no_quote (by decide), fun _ => .inl (by decide)⟩
  | number negative rank =>
    rcases Nat.lt_or_ge rank.val infinityRank with hfinite | hinfinite
    · have hvalue : (Json.float (.number negative rank)).isStandard = true := decide_eq_true hfinite
      exact betrays_of_isStandard hvalue
    · have hrank : rank = ⟨infinityRank, Nat.lt_succ_self _⟩ :=
        Fin.ext (Nat.le_antisymm (Nat.le_of_lt_succ rank.isLt) hinfinite)
      have htext : floatText Layout.json (.infinity negative)
          = Numeral.signText negative ++ ("Infinity" : Text).toList := by
        cases negative <;> rfl
      have hword : Shows (Numeral.signText negative ++ ("Infinity" : Text).toList)
          (Numeral.signText negative ++ ("Infinity" : Text).toList) := by
        apply shows_of_no_quote
        cases negative <;> decide
      rw [← htext] at hword
      rw [hrank]
      refine ⟨_, hword, fun _ => .inr ?_⟩
      rw [htext]
      exact List.mem_append_right _ (List.mem_cons_self ..)

theorem betrays_field {value : Json} (h : Betrays value.textChars value.isStandard) (name : Text) :
    Betrays (stringText name ++ char ':' :: char ' ' :: value.textChars) value.isStandard := by
  have hname : IsQuiet (stringText name) := isQuiet_of_isString (isString_stringText name)
  have hcolon : IsQuiet [char ':', ' '] := isQuiet_of_all (by decide)
  have hfield := hname.betrays.append (hcolon.betrays.append h)
  rwa [Bool.true_and, Bool.true_and] at hfield

theorem betrays_pair {cs ds : List CodePoint} {first second : Bool} (hcs : Betrays cs first)
    (hds : Betrays ds second) : Betrays (cs ++ char ',' :: char ' ' :: ds) (first && second) := by
  have hcomma : IsQuiet [char ',', ' '] := isQuiet_of_all (by decide)
  have hrest := hcomma.betrays.append hds
  rw [Bool.true_and] at hrest
  exact hcs.append hrest

mutual

theorem betrays_textChars : ∀ value : Json, Betrays value.textChars value.isStandard
  | .null => betrays_of_isStandard rfl
  | .bool true => betrays_of_isStandard rfl
  | .bool false => betrays_of_isStandard rfl
  | .int _ => betrays_of_isStandard rfl
  | .float x => betrays_floatText x
  | .string _ => betrays_of_isStandard rfl
  | .array items => by
    have hopen : IsQuiet [char '['] := isQuiet_of_all (by decide)
    exact (betrays_itemsText items).enclosed hopen (isQuiet_of_all (by decide))
  | .object fields => by
    have hopen : IsQuiet [char '\x7b'] := isQuiet_of_all (by decide)
    exact (betrays_fieldsText fields).enclosed hopen (isQuiet_of_all (by decide))

theorem betrays_itemsText : ∀ items : List Json, Betrays (itemsText items) (itemsStandard items)
  | [] => isQuiet_nil.betrays
  | [item] => by
    rw [itemsStandard, itemsStandard, Bool.and_true]
    exact betrays_textChars item
  | item :: next :: rest => betrays_pair (betrays_textChars item) (betrays_itemsText (next :: rest))

theorem betrays_fieldsText : ∀ fields : List (Text × Json),
    Betrays (fieldsText fields) (fieldsStandard fields)
  | [] => isQuiet_nil.betrays
  | [(name, value)] => by
    rw [fieldsStandard, fieldsStandard, Bool.and_true]
    exact betrays_field (betrays_textChars value) name
  | (name, value) :: next :: rest => by
    have hfields := betrays_pair (betrays_field (betrays_textChars value) name)
      (betrays_fieldsText (next :: rest))
    rwa [List.append_assoc] at hfields

end

/-- What is written for a value is a text of the standard exactly if its numbers are finite. -/
theorem isText_textChars_iff (value : Json) : IsText value.textChars ↔ value.isStandard = true := by
  constructor
  · intro h
    by_contra hvalue
    rw [Bool.not_eq_true] at hvalue
    obtain ⟨shown, hshown, hletter⟩ := betrays_textChars value
    obtain ⟨quiet, hquiet, hn, hi⟩ := isQuiet_of_derives h
    rw [hshown.unique hquiet] at hletter
    rcases hletter hvalue with h | h
    · exact hn h
    · exact hi h
  · intro h
    exact derives_element (derives_textChars value h)

end Standard

end FeatureToggles.Json
