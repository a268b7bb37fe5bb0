import FeatureToggles.Proofs.ParsedRules
import FeatureToggles.Proofs.StandardText
import FeatureToggles.Proofs.StoredForm

/-!
# Numbers that are not finite

The stored form of an expression is a text of the JSON standard exactly if its binary64 numbers are finite.
An integer that stands for such a number is refused if it overflows, but the number itself is not: what is
parsed from a number with a point and what is decoded from a number of JSON may be infinite, and what is
decoded from a word may be a not-a-number.
-/

namespace FeatureToggles

open CodePoint (char)

open Json.Standard (IsText isText_textChars_iff)

/-! ### Overflow -/

namespace Binary64

/-- A decimal is finite if it lies below the midpoint at which magnitudes overflow. -/
theorem isFinite_ofDecimal_iff (negative : Bool) (m : ℕ) (e : ℤ) :
    (ofDecimal negative m e).isFinite = true ↔ m * 10 ^ e.toNat < overflow * 10 ^ (-e).toNat := by
  have hpos : 0 < 10 ^ (-e).toNat := Nat.pow_pos (by decide)
  rw [ofDecimal, roundDecimal_eq_roundRatio, ← rankOf_lt_iff hpos]
  simp only [isFinite, val_roundRatio, decide_eq_true_eq]
  omega

/-- An integer serves as a finite number or not at all. -/
theorem isFinite_of_ofInt? {n : ℤ} {x : Binary64} (h : ofInt? n = some x) : x.isFinite = true := by
  unfold ofInt? at h
  dsimp only at h
  split at h
  · next hfinite =>
    rw [Option.some.injEq] at h
    rwa [← h]
  · cases h

end Binary64

namespace RuleText

/-- Whether the digits before and behind the point of a number are those of a decimal that lies below the
midpoint at which magnitudes overflow. -/
def Fits (cs : List CodePoint) : Prop :=
  ∀ whole fraction, digitValues? (cs.takeWhile (· ≠ char '.')) = some whole →
    digitValues? ((cs.dropWhile (· ≠ char '.')).drop 1) = some fraction →
    Decimal.ofDigits (whole ++ fraction) < Binary64.overflow * 10 ^ fraction.length

/-- A number with a point stands for a finite number just if it fits. -/
theorem isFinite_floatOf?_iff {cs : List CodePoint} {x : Binary64} (h : floatOf? cs = some x) :
    x.isFinite = true ↔ Fits cs := by
  simp only [floatOf?, Option.bind_eq_bind, Option.bind_eq_some_iff, Option.pure_def,
    Option.some.injEq] at h
  obtain ⟨whole, hwhole, fraction, hfraction, rfl⟩ := h
  have hexponent : ((0 : ℤ) - fraction.length).toNat = 0 := by omega
  have hplaces : (-((0 : ℤ) - fraction.length)).toNat = fraction.length := by omega
  rw [Decimal.Numeral.toBinary64, Binary64.isFinite_ofDecimal_iff, Option.getD_none, hexponent, hplaces,
    Nat.pow_zero, Nat.mul_one, Fits]
  constructor
  · intro hlt other otherFraction hother hotherFraction
    rw [hwhole, Option.some.injEq] at hother
    rw [hfraction, Option.some.injEq] at hotherFraction
    rwa [← hother, ← hotherFraction]
  · intro hfits
    exact hfits whole fraction hwhole hfraction

/-- The number that a token with a point stands for. -/
def Token.float? (token : Token) : Option Binary64 :=
  if token.kind = .float then floatOf? token.value.toList else none

theorem Token.float?_eq_none {token : Token} (h : token.kind ≠ .float) : token.float? = none :=
  if_neg h

theorem Token.IsOperator.float?_eq_none {token : Token} {spelling : Text}
    (h : token.IsOperator spelling) : token.float? = none := by
  apply Token.float?_eq_none
  rw [h.1]
  decide

end RuleText

/-! ### Numbers of expressions -/

namespace Expr

/-- The binary64 numbers that an expression holds. -/
def floats : Expr → List Binary64
  | literal (.float x) => [x]
  | literal _ => []
  | ident _ => []
  | binary _ left right => left.floats ++ right.floats
  | unary _ operand => operand.floats

/-- Whether all binary64 numbers within are finite. -/
def HasFiniteFloats (e : Expr) : Prop :=
  ∀ x ∈ e.floats, x.isFinite = true

/-- The stored form holds the numbers of the expression and no other ones. -/
theorem isStandard_encode_iff (e : Expr) : e.encode.isStandard = true ↔ e.HasFiniteFloats := by
  unfold HasFiniteFloats
  induction e with
  | literal value =>
    cases value <;> simp [encode, Literal.toJson, Json.isStandard, Json.fieldsStandard, floats]
  | ident name => simp [encode, Json.isStandard, Json.fieldsStandard, floats]
  | binary op left right ihl ihr =>
    simp only [encode, Json.isStandard, Json.fieldsStandard, Bool.and_true, Bool.true_and,
      Bool.and_eq_true, floats, List.forall_mem_append, ihl, ihr]
  | unary op operand ih =>
    simp only [encode, Json.isStandard, Json.fieldsStandard, Bool.and_true, Bool.true_and, floats, ih]

/-- The numbers of a parsed expression are those of its tokens, in order. -/
theorem floats_of_derives {symbol : RuleText.Symbol} {ts : List RuleText.Token} {e : Expr}
    (h : RuleText.Derives symbol ts e) : e.floats = ts.filterMap RuleText.Token.float? := by
  induction h with
  | conjunction _ ih => exact ih
  | comparison _ ih => exact ih
  | unary _ ih => exact ih
  | primary _ ih => exact ih
  | or _ ht _ ihl ihr =>
    rw [floats, ihl, ihr, List.filterMap_append, List.filterMap_cons_none ht.float?_eq_none]
  | and _ ht _ ihl ihr =>
    rw [floats, ihl, ihr, List.filterMap_append, List.filterMap_cons_none ht.float?_eq_none]
  | compare op _ _ ht _ ihl ihr =>
    rw [floats, ihl, ihr, List.filterMap_append, List.filterMap_cons_none ht.float?_eq_none]
  | sign op ht _ ih => rw [floats, ih, List.filterMap_cons_none ht.float?_eq_none]
  | float s position hx =>
    rw [List.filterMap_cons_some (by exact hx)]
    rfl
  | group ho _ hc ih =>
    have hopening := RuleText.Token.float?_eq_none (by rw [ho]; decide)
    have hclosing := RuleText.Token.float?_eq_none (by rw [hc]; decide)
    rw [ih, List.filterMap_cons_none hopening, List.filterMap_append,
      List.filterMap_cons_none hclosing, List.filterMap_nil, List.append_nil]
  | _ => rfl

/-- What is parsed holds finite numbers just if all numbers with a point fit. -/
theorem hasFiniteFloats_of_parse_iff {text : Text} {e : Expr} {ts : List RuleText.Token}
    (hparse : RuleText.parse text = .ok e) (hlex : RuleText.lex text = .ok ts) :
    e.HasFiniteFloats ↔ ∀ t ∈ ts, t.kind = .float → RuleText.Fits t.value.toList := by
  obtain ⟨tokens, htokens, hderives, -, -⟩ := RuleText.derives_of_parse hparse
  rw [hlex] at htokens
  cases htokens
  have hconverts := RuleText.converts_of_derives hderives
  rw [HasFiniteFloats, floats_of_derives hderives]
  constructor
  · intro h t ht hkind
    obtain ⟨x, hx⟩ := Option.isSome_iff_exists.1 ((hconverts t ht).2 hkind)
    have hfloat : t.float? = some x := by rw [RuleText.Token.float?, if_pos hkind, hx]
    exact (RuleText.isFinite_floatOf?_iff hx).1 (h x (List.mem_filterMap.2 ⟨t, ht, hfloat⟩))
  · intro h x hx
    obtain ⟨t, ht, hfloat⟩ := List.mem_filterMap.1 hx
    unfold RuleText.Token.float? at hfloat
    split at hfloat
    · next hkind => exact (RuleText.isFinite_floatOf?_iff hfloat).2 (h t ht hkind)
    · cases hfloat

end Expr

/-! ### Numbers of stored forms -/

/-- Whether a node of a stored form, at any place of the tree, holds a value for a binary64 number. -/
inductive Json.HoldsNumber : Json → Json → Prop
  | leaf {fields : List (Text × Json)} {held : Json}
    (htag : fieldOf? "type" fields = some (.string "float"))
    (hvalue : fieldOf? "value" fields = some held) : HoldsNumber (.object fields) held
  | left {fields : List (Text × Json)} {part held : Json}
    (htag : fieldOf? "type" fields = some (.string "binary"))
    (hpart : fieldOf? "left" fields = some part) (h : HoldsNumber part held) :
    HoldsNumber (.object fields) held
  | right {fields : List (Text × Json)} {part held : Json}
    (htag : fieldOf? "type" fields = some (.string "binary"))
    (hpart : fieldOf? "right" fields = some part) (h : HoldsNumber part held) :
    HoldsNumber (.object fields) held
  | operand {fields : List (Text × Json)} {part held : Json}
    (htag : fieldOf? "type" fields = some (.string "unary"))
    (hpart : fieldOf? "expr" fields = some part) (h : HoldsNumber part held) :
    HoldsNumber (.object fields) held

namespace Expr

theorem heldBy_of_decodeLevels {levels : ℕ} {fields : List (Text × Json)} {e : Expr}
    (h : decodeLevels levels (.object fields) = .ok e) :
    ∃ below, HeldBy (decodeLevels below) fields e := by
  cases levels with
  | zero => cases h
  | succ levels =>
    obtain ⟨held, hfields, hheld⟩ := decodeLevels_succ_eq_ok_iff.1 h
    cases hfields
    exact ⟨levels, hheld⟩

namespace HeldBy

variable {decode : Json → Decoded Expr} {fields : List (Text × Json)} {e : Expr}

/-- The tag of a leaf tells its kind. -/
theorem leaf_of_tag (h : HeldBy decode fields e) {kind : Leaf}
    (htag : Json.fieldOf? "type" fields = some (.string kind.name)) :
    ∃ value, Json.fieldOf? "value" fields = some value ∧ decodeLeaf kind value = .ok e := by
  cases h with
  | @leaf value _ other hother hvalue hleaf =>
    rw [htag, Option.some.injEq, Json.string.injEq] at hother
    have hkind : kind = other := by
      revert hother
      cases kind <;> cases other <;> decide
    exact ⟨value, hvalue, hkind ▸ hleaf⟩
  | binary hother =>
    rw [htag, Option.some.injEq, Json.string.injEq] at hother
    cases kind <;> exact absurd hother (by decide)
  | unary hother =>
    rw [htag, Option.some.injEq, Json.string.injEq] at hother
    cases kind <;> exact absurd hother (by decide)

theorem binary_of_tag (h : HeldBy decode fields e)
    (htag : Json.fieldOf? "type" fields = some (.string "binary")) :
    ∃ op l r left right, Json.fieldOf? "left" fields = some l ∧
      Json.fieldOf? "right" fields = some r ∧ decode l = .ok left ∧ decode r = .ok right ∧
      e = .binary op left right := by
  cases h with
  | leaf kind hother =>
    rw [htag, Option.some.injEq, Json.string.injEq] at hother
    cases kind <;> exact absurd hother (by decide)
  | binary _ _ hl hr hleft hright => exact ⟨_, _, _, _, _, hl, hr, hleft, hright, rfl⟩
  | unary hother => simp [htag] at hother

theorem unary_of_tag (h : HeldBy decode fields e)
    (htag : Json.fieldOf? "type" fields = some (.string "unary")) :
    ∃ op o operand, Json.fieldOf? "expr" fields = some o ∧ decode o = .ok operand ∧
      e = .unary op operand := by
  cases h with
  | leaf kind hother =>
    rw [htag, Option.some.injEq, Json.string.injEq] at hother
    cases kind <;> exact absurd hother (by decide)
  | binary hother => simp [htag] at hother
  | unary _ _ ho hoperand => exact ⟨_, _, _, ho, hoperand, rfl⟩

end HeldBy

/-- A leaf for a binary64 number is decoded as one. -/
theorem exists_eq_float {value : Json} {e : Expr} (h : decodeLeaf .float value = .ok e) :
    ∃ x, e = .literal (.float x) := by
  cases (decodeLeaf_spec h).1 with
  | float x =>
    cases h
    exact ⟨x, rfl⟩
  | integer n =>
    obtain ⟨x, -, rfl⟩ := decodeLeaf_integer_eq_ok_iff.1 h
    exact ⟨x, rfl⟩

/-- What a node holds for a number is decoded to one of the numbers of the expression. -/
theorem exists_float_of_holdsNumber {value held : Json} (h : value.HoldsNumber held) {levels : ℕ}
    {e : Expr} (hdecode : decodeLevels levels value = .ok e) :
    ∃ x ∈ e.floats, decodeLeaf .float held = .ok (.literal (.float x)) := by
  induction h generalizing levels e with
  | leaf htag hvalue =>
    obtain ⟨below, hheld⟩ := heldBy_of_decodeLevels hdecode
    have hkind : Json.fieldOf? "type" _ = some (.string (Leaf.name .float)) := htag
    obtain ⟨found, hfound, hleaf⟩ := hheld.leaf_of_tag hkind
    rw [hvalue, Option.some.injEq] at hfound
    subst hfound
    obtain ⟨x, rfl⟩ := exists_eq_float hleaf
    exact ⟨x, List.mem_singleton_self _, hleaf⟩
  | left htag hpart _ ih =>
    obtain ⟨below, hheld⟩ := heldBy_of_decodeLevels hdecode
    obtain ⟨op, l, r, left, right, hl, -, hleft, -, rfl⟩ := hheld.binary_of_tag htag
    rw [hpart, Option.some.injEq] at hl
    obtain ⟨x, hx, hleaf⟩ := ih (hl ▸ hleft)
    exact ⟨x, List.mem_append_left _ hx, hleaf⟩
  | right htag hpart _ ih =>
    obtain ⟨below, hheld⟩ := heldBy_of_decodeLevels hdecode
    obtain ⟨op, l, r, left, right, -, hr, -, hright, rfl⟩ := hheld.binary_of_tag htag
    rw [hpart, Option.some.injEq] at hr
    obtain ⟨x, hx, hleaf⟩ := ih (hr ▸ hright)
    exact ⟨x, List.mem_append_right _ hx, hleaf⟩
  | operand htag hpart _ ih =>
    obtain ⟨below, hheld⟩ := heldBy_of_decodeLevels hdecode
    obtain ⟨op, o, operand, ho, hoperand, rfl⟩ := hheld.unary_of_tag htag
    rw [hpart, Option.some.injEq] at ho
    rw [floats]
    exact ih (ho ▸ hoperand)

/-- Each number of a decoded expression comes from what a node holds for it. -/
theorem exists_holdsNumber_of_mem {levels : ℕ} {value : Json} {e : Expr}
    (h : decodeLevels levels value = .ok e) {x : Binary64} (hx : x ∈ e.floats) :
    ∃ held, value.HoldsNumber held ∧ decodeLeaf .float held = .ok (.literal (.float x)) := by
  induction levels generalizing value e with
  | zero => cases h
  | succ levels ih =>
    obtain ⟨fields, rfl, hfields⟩ := decodeLevels_succ_eq_ok_iff.1 h
    cases hfields with
    | @leaf held e kind htag hvalue hleaf =>
      cases kind with
      | float =>
        obtain ⟨y, rfl⟩ := exists_eq_float hleaf
        rw [List.mem_singleton.1 hx]
        exact ⟨held, .leaf htag hvalue, hleaf⟩
      | _ =>
        cases (decodeLeaf_spec hleaf).1
        cases hleaf
        cases hx
    | binary htag _ hl hr hleft hright =>
      rcases List.mem_append.1 hx with hx | hx
      · obtain ⟨held, hheld, hleaf⟩ := ih hleft hx
        exact ⟨held, .left htag hl hheld, hleaf⟩
      · obtain ⟨held, hheld, hleaf⟩ := ih hright hx
        exact ⟨held, .right htag hr hheld, hleaf⟩
    | unary htag _ ho hoperand =>
      obtain ⟨held, hheld, hleaf⟩ := ih hoperand hx
      exact ⟨held, .operand htag ho hheld, hleaf⟩

/-- What is decoded holds finite numbers just if the numbers that the nodes hold are finite. The integers
that stand for numbers do not matter. -/
theorem hasFiniteFloats_of_decode_iff {value : Json} {e : Expr} (h : decode value = .ok e) :
    e.HasFiniteFloats ↔ ∀ x, value.HoldsNumber (.float x) → x.isFinite = true := by
  constructor
  · intro hfinite x hx
    obtain ⟨y, hy, hleaf⟩ := exists_float_of_holdsNumber hx h
    cases hleaf
    exact hfinite x hy
  · intro hnodes x hx
    obtain ⟨held, hheld, hleaf⟩ := exists_holdsNumber_of_mem h hx
    cases (decodeLeaf_spec hleaf).1 with
    | float y =>
      cases hleaf
      exact hnodes x hheld
    | integer n =>
      obtain ⟨y, hy, hxy⟩ := decodeLeaf_integer_eq_ok_iff.1 hleaf
      cases hxy
      exact Binary64.isFinite_of_ofInt? hy

/-- No integer that stands for a number in a decoded expression overflows. -/
theorem natAbs_lt_of_holdsNumber {value : Json} {e : Expr} (h : decode value = .ok e) {n : ℤ}
    (hn : value.HoldsNumber (.int n)) : n.natAbs < Binary64.overflow := by
  obtain ⟨x, -, hleaf⟩ := exists_float_of_holdsNumber hn h
  obtain ⟨y, hy, -⟩ := decodeLeaf_integer_eq_ok_iff.1 hleaf
  exact (Binary64.isSome_ofInt?_iff n).1 (Option.isSome_iff_exists.2 ⟨y, hy⟩)

/-- A node with the tag of a leaf is decoded from its value. -/
theorem decodeLevels_leaf (levels : ℕ) (kind : Leaf) {fields : List (Text × Json)} {value : Json}
    (htag : Json.fieldOf? "type" fields = some (.string kind.name))
    (hvalue : Json.fieldOf? "value" fields = some value) :
    decodeLevels (levels + 1) (.object fields) = decodeLeaf kind value := by
  have hkind : Tag.ofJson? (.string kind.name) = some (.leaf kind) := ofJson?_name (.leaf kind)
  simp only [decodeLevels, htag, hkind]
  rw [requiredField_eq_ok_iff.2 hvalue]
  exact pure_bind _ _

/-- An integer that overflows is refused where it would stand for a number. -/
theorem decode_of_overflow {fields : List (Text × Json)} {n : ℤ}
    (htag : Json.fieldOf? "type" fields = some (.string "float"))
    (hvalue : Json.fieldOf? "value" fields = some (.int n)) (hn : Binary64.overflow ≤ n.natAbs) :
    decode (.object fields) = .error (.defect ⟨.outOfRange, []⟩) := by
  have hkind : Json.fieldOf? "type" fields = some (.string (Leaf.name .float)) := htag
  rw [decode, maxDepth, decodeLevels_leaf _ .float hkind hvalue, decodeLeaf_of_overflow hn]

theorem write_encode_isText_iff (e : Expr) :
    IsText (Json.write e.encode).toList ↔ e.HasFiniteFloats := by
  rw [Json.write, Text.toList_ofList, isText_textChars_iff, isStandard_encode_iff]

end Expr

/-! ### Texts of one number -/

/-- A text that is one number with a point is parsed to it. -/
theorem RuleText.parse_of_lex_float {text s : Text} {position : ℕ} {x : Binary64}
    (hlex : lex text = .ok [⟨.float, s, position⟩]) (hx : floatOf? s.toList = some x) :
    parse text = .ok (.literal (.float x)) := by
  have hderives : Derives .disjunction [⟨.float, s, position⟩] (.literal (.float x)) :=
    .conjunction (.comparison (.unary (.primary (.float s position hx))))
  have hwithin : Within Expr.maxDepth [] [⟨.float, s, position⟩] := by
    intro n hn
    rw [List.mem_singleton.1 hn]
    exact Nat.zero_le _
  have hdepth : (Expr.literal (.float x)).depth ≤ Expr.maxDepth := by
    simp [Expr.depth_eq_height, Expr.height, Expr.maxDepth]
  rw [parse, hlex]
  exact parseTokens_eq_ok_iff.2 ⟨reads_disjunction_iff.2 ⟨hderives, hwithin⟩, hdepth⟩

/-- A document that is one node is decoded to the number that its value reads as. -/
theorem Expr.decode_of_text [JsonLibrary] {text : Text} {number : List CodePoint} {x : Binary64}
    (htext : text.toList = ("\x7b\"type\": \"float\", \"value\": " : Text).toList ++ (number ++ [char '\x7d']))
    (hnumber : Json.tokens (number ++ [char '\x7d']) = .scalar (.float x) :: Json.tokens [char '\x7d']) :
    (StoredJson.ofText text >>= decode) = .ok (.literal (.float x)) := by
  have htokens : Json.tokens text.toList = [.openObject, .string "type", .colon, .string "float", .comma,
      .string "value", .colon, .scalar (.float x), .closeObject] := by
    rw [htext]
    show Json.tokens (char '\x7b' :: (Json.stringText "type" ++ char ':' :: char ' '
      :: (Json.stringText "float" ++ char ',' :: char ' '
        :: (Json.stringText "value" ++ char ':' :: char ' ' :: (number ++ [char '\x7d']))))) = _
    simp only [Json.tokens_openObject, Json.tokens_stringText, Text.joined_ofString, Json.tokens_colon,
      Json.tokens_space, Json.tokens_comma, hnumber, Json.tokens_closeObject, Json.tokens]
  have hread : StoredJson.ofText text
      = .ok (.object [("type", .string "float"), ("value", .float x)]) := by
    have hstart : Json.start [] .openObject = .ok (.openedObject, []) :=
      if_pos (JsonLibrary.room (Nat.zero_lt_succ _))
    rw [StoredJson.ofText, StoredJson.ofChars, Json.readChars, htokens,
      Json.run_start (.inl rfl) (by simp) hstart]
    rfl
  rw [hread]
  rfl

namespace Rule

theorem isStandard_map_encode_iff (rules : List Rule) :
    Json.itemsStandard (rules.map encode) = true ↔ ∀ rule ∈ rules, rule.expr.HasFiniteFloats := by
  induction rules with
  | nil => simp [Json.itemsStandard]
  | cons rule rules ih =>
    rw [List.map_cons, Json.itemsStandard, Bool.and_eq_true, ih, List.forall_mem_cons,
      ← Expr.isStandard_encode_iff]
    simp [encode, Json.isStandard, Json.fieldsStandard]

theorem encodeAll_isText_iff (rules : List Rule) :
    IsText (encodeAll rules).toList ↔ ∀ rule ∈ rules, rule.expr.HasFiniteFloats := by
  rw [encodeAll, Json.write, Text.toList_ofList, isText_textChars_iff, Json.isStandard,
    isStandard_map_encode_iff]

/-- **Standard stored texts.** The text of an expression and the text of a list of rules are standard JSON
just if all binary64 numbers within are finite. What is parsed holds finite numbers just if each number with
a point lies below the midpoint at which magnitudes overflow. What is decoded holds finite numbers just if
no node holds an infinite number or a not-a-number. An integer that stands for a number is refused if it
overflows. -/
theorem stored_texts_standard (text : Text) (value : Json) (e : Expr) (rules : List Rule) :
    (IsText (Json.write e.encode).toList ↔ e.HasFiniteFloats)
      ∧ (IsText (encodeAll rules).toList ↔ ∀ rule ∈ rules, rule.expr.HasFiniteFloats)
      ∧ (RuleText.parse text = .ok e →
          ∃ ts, RuleText.lex text = .ok ts
            ∧ (e.HasFiniteFloats ↔ ∀ t ∈ ts, t.kind = .float → RuleText.Fits t.value.toList))
      ∧ (Expr.decode value = .ok e →
          (e.HasFiniteFloats ↔ ∀ x, value.HoldsNumber (.float x) → x.isFinite = true)
            ∧ ∀ n, value.HoldsNumber (.int n) → n.natAbs < Binary64.overflow)
      ∧ (∀ fields n, value = .object fields → Json.fieldOf? "type" fields = some (.string "float") →
          Json.fieldOf? "value" fields = some (.int n) → Binary64.overflow ≤ n.natAbs →
          Expr.decode value = .error (.defect ⟨.outOfRange, []⟩)) := by
  refine ⟨Expr.write_encode_isText_iff e, encodeAll_isText_iff rules, ?_, ?_, ?_⟩
  · intro hparse
    obtain ⟨ts, hlex, -⟩ := RuleText.derives_of_parse hparse
    exact ⟨ts, hlex, Expr.hasFiniteFloats_of_parse_iff hparse hlex⟩
  · intro hdecode
    refine ⟨Expr.hasFiniteFloats_of_decode_iff hdecode, ?_⟩
    intro n hn
    exact Expr.natAbs_lt_of_holdsNumber hdecode hn
  · rintro fields n rfl htag hvalue hn
    exact Expr.decode_of_overflow htag hvalue hn

/-- A rule text with the number a half, a document with an infinite number, and one with an integer of 401
digits. -/
theorem stored_texts_standard_half :
    (∃ ts, RuleText.lex "0.5" = .ok ts
      ∧ ((Expr.literal (.float (.ofDecimal false 5 (-1)))).HasFiniteFloats ↔
          ∀ t ∈ ts, t.kind = .float → RuleText.Fits t.value.toList))
      ∧ ((Expr.literal (.float (.infinity true))).HasFiniteFloats ↔
          ∀ x, (Json.object [("type", .string "float"), ("value", .float (.infinity true))]).HoldsNumber
            (.float x) → x.isFinite = true)
      ∧ Expr.decode (.object [("type", .string "float"), ("value", .int (10 ^ 400))])
          = .error (.defect ⟨.outOfRange, []⟩) := by
  have hlex : RuleText.lex "0.5" = .ok [⟨.float, "0.5", 0⟩] := by cbv
  have hparse : RuleText.parse "0.5" = .ok (.literal (.float (.ofDecimal false 5 (-1)))) :=
    RuleText.parse_of_lex_float hlex rfl
  have hinfinite : Expr.decode (.object [("type", .string "float"), ("value", .float (.infinity true))])
      = .ok (.literal (.float (.infinity true))) := rfl
  obtain ⟨-, -, hparsed, -, -⟩ := stored_texts_standard "0.5" .null
    (.literal (.float (.ofDecimal false 5 (-1)))) []
  obtain ⟨-, -, -, hdecoded, -⟩ := stored_texts_standard ""
    (.object [("type", .string "float"), ("value", .float (.infinity true))])
    (.literal (.float (.infinity true))) []
  obtain ⟨-, -, -, -, hrefused⟩ := stored_texts_standard ""
    (.object [("type", .string "float"), ("value", .int (10 ^ 400))]) (.ident "") []
  exact ⟨hparsed hparse, (hdecoded hinfinite).1, hrefused _ _ rfl rfl rfl (by decide +kernel)⟩

attribute [local instance] JsonLibrary.terse

set_option maxRecDepth 20000 in
/-- Numbers beyond the format are not refused: a rule text with 310 digits in front of the point is parsed
to an infinite number, a document may hold one or a not-a-number, and what is then written is not standard
JSON. -/
theorem infinite_numbers_written :
    RuleText.parse (Text.ofList (List.replicate 310 (char '9') ++ [char '.', '0']))
        = .ok (.literal (.float (.infinity false)))
      ∧ (StoredJson.ofText "\x7b\"type\": \"float\", \"value\": 1e400\x7d" >>= Expr.decode)
        = .ok (.literal (.float (.infinity false)))
      ∧ (StoredJson.ofText "\x7b\"type\": \"float\", \"value\": NaN\x7d" >>= Expr.decode)
        = .ok (.literal (.float .nan))
      ∧ ¬ (Expr.literal (.float (.infinity false))).HasFiniteFloats
      ∧ ¬ IsText (Json.write (Expr.literal (.float (.infinity false))).encode).toList
      ∧ ¬ IsText (Json.write (Expr.literal (.float .nan)).encode).toList := by
  have hinfinite : ¬ (Expr.literal (.float (.infinity false))).HasFiniteFloats := by
    intro h
    exact absurd (h _ (List.mem_singleton_self _)) (by decide)
  have hnan : ¬ (Expr.literal (.float .nan)).HasFiniteFloats := by
    intro h
    exact absurd (h _ (List.mem_singleton_self _)) (by decide)
  have hlex : RuleText.lex (Text.ofList (List.replicate 310 (char '9') ++ [char '.', '0']))
      = .ok [⟨.float, Text.ofList (List.replicate 310 (char '9') ++ [char '.', '0']), 0⟩] := by
    rw [RuleText.lex, Text.toList_ofList]
    cbv
  have hnines : RuleText.floatOf? (Text.ofList (List.replicate 310 (char '9') ++ [char '.', '0'])).toList
      = some (.infinity false) := by
    rw [Text.toList_ofList]
    decide +kernel
  have hpower : Json.tokens (("1e400" : Text).toList ++ [char '\x7d'])
      = .scalar (.float (.infinity false)) :: Json.tokens [char '\x7d'] :=
    Json.tokens_cons rfl rfl
  have hword : (("NaN" : Text).toList, Json.float .nan) ∈ Json.words := by simp [Json.words]
  refine ⟨?_, ?_, ?_, hinfinite, ?_, ?_⟩
  · exact RuleText.parse_of_lex_float hlex hnines
  · exact Expr.decode_of_text rfl hpower
  · exact Expr.decode_of_text rfl (Json.tokens_word hword _)
  · rwa [Expr.write_encode_isText_iff]
  · rwa [Expr.write_encode_isText_iff]

end Rule

end FeatureToggles
