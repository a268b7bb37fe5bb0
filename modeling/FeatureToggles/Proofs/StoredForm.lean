import FeatureToggles.Proofs.ExprText
import FeatureToggles.Proofs.Rounding

/-!
# The schema of stored expressions

Which JSON values are decoded to an expression, and what is left of them in its stored form: all that
their nodes consist of, but no other fields, and binary64 numbers where integers stood for them.
-/

namespace FeatureToggles

open Decoded (inside ofOption)

/-! ### The schema -/

/-- What the value of a leaf may be. An integer serves as a binary64 number if it does not overflow, and a
truth value never serves as a number. -/
inductive Leaf.Admits : Leaf → Json → Prop
  | string (s : Text) : Admits .string (.string s)
  | int (n : ℤ) : Admits .int (.int n)
  | float (x : Binary64) : Admits .float (.float x)
  | integer {n : ℤ} (h : n.natAbs < Binary64.overflow) : Admits .float (.int n)
  | bool (b : Bool) : Admits .bool (.bool b)
  | ident (s : Text) : Admits .ident (.string s)

namespace Json

/-- The stored forms of nodes on a level. The parts of a node stand on the next level, and there are 64
levels; fields that are not named here may be there or not. -/
inductive IsNode : ℕ → Json → Prop
  | leaf {level : ℕ} {fields : List (Text × Json)} {value : Json} (hlevel : level ≤ 64) (kind : Leaf)
    (htag : fieldOf? "type" fields = some (.string kind.name))
    (hvalue : fieldOf? "value" fields = some value) (hadmits : kind.Admits value) :
    IsNode level (.object fields)
  | binary {level : ℕ} {fields : List (Text × Json)} {op : Text} {left right : Json}
    (hlevel : level ≤ 64) (htag : fieldOf? "type" fields = some (.string "binary"))
    (hop : fieldOf? "op" fields = some (.string op)) (hleft : fieldOf? "left" fields = some left)
    (hright : fieldOf? "right" fields = some right) (hl : IsNode (level + 1) left)
    (hr : IsNode (level + 1) right) : IsNode level (.object fields)
  | unary {level : ℕ} {fields : List (Text × Json)} {op : Text} {operand : Json}
    (hlevel : level ≤ 64) (htag : fieldOf? "type" fields = some (.string "unary"))
    (hop : fieldOf? "op" fields = some (.string op)) (hoperand : fieldOf? "expr" fields = some operand)
    (ho : IsNode (level + 1) operand) : IsNode level (.object fields)

theorem IsNode.level_le {level : ℕ} {value : Json} (h : IsNode level value) : level ≤ 64 := by
  cases h <;> assumption

end Json

/-! ### What is left of a stored form -/

namespace Tag

/-- The fields that a node consists of. -/
def fieldNames : Tag → List Text
  | leaf _ => ["type", "value"]
  | binary => ["type", "op", "left", "right"]
  | unary => ["type", "op", "expr"]

/-- Those of them that hold other nodes. -/
def partNames : Tag → List Text
  | leaf _ => []
  | binary => ["left", "right"]
  | unary => ["expr"]

theorem mem_fieldNames_of_mem_partNames {tag : Tag} {name : Text} (h : name ∈ tag.partNames) :
    name ∈ tag.fieldNames := by
  cases tag with
  | leaf kind => cases h
  | binary => exact List.mem_of_mem_drop (i := 2) h
  | unary => exact List.mem_of_mem_drop (i := 2) h

/-- What a field without other nodes holds: in a leaf with a binary64 number, integers are converted. -/
def converted : Tag → Json → Json
  | leaf .float, .int n => (Binary64.ofInt? n).elim (.int n) .float
  | _, value => value

theorem converted_string (tag : Tag) (s : Text) : tag.converted (.string s) = .string s := by
  simp [converted]

end Tag

namespace Json

/-- The kind of nodes that the fields of an object name. -/
def tagOf? (fields : List (Text × Json)) : Option Tag :=
  (fieldOf? "type" fields).bind Tag.ofJson?

mutual

/-- The value without the fields that its nodes do not consist of, at every level, and with binary64
numbers where integers stand for them. -/
def pruned : Json → Json
  | object fields =>
    match tagOf? fields with
    | some tag => object (prunedFields tag fields)
    | none => object fields
  | value => value

@[inherit_doc pruned] def prunedFields (tag : Tag) : List (Text × Json) → List (Text × Json)
  | [] => []
  | (name, value) :: rest =>
    if name ∈ tag.partNames then (name, pruned value) :: prunedFields tag rest
    else if name ∈ tag.fieldNames then (name, tag.converted value) :: prunedFields tag rest
    else prunedFields tag rest

end

/-- What is left of the value in a field of a node. -/
def prunedAt (tag : Tag) (name : Text) (value : Json) : Json :=
  if name ∈ tag.partNames then pruned value else tag.converted value

theorem prunedFields_cons (tag : Tag) (name : Text) (value : Json) (rest : List (Text × Json)) :
    prunedFields tag ((name, value) :: rest)
      = if name ∈ tag.fieldNames then (name, prunedAt tag name value) :: prunedFields tag rest
        else prunedFields tag rest := by
  rw [prunedFields, prunedAt]
  by_cases hpart : name ∈ tag.partNames
  · have hfield := Tag.mem_fieldNames_of_mem_partNames hpart
    rw [if_pos hpart, if_pos hfield, if_pos hpart]
  · rw [if_neg hpart, if_neg hpart]

/-- A node keeps the fields that it consists of, and no others. -/
theorem fieldOf?_prunedFields (tag : Tag) (name : Text) (fields : List (Text × Json)) :
    fieldOf? name (prunedFields tag fields)
      = if name ∈ tag.fieldNames then (fieldOf? name fields).map (prunedAt tag name) else none := by
  induction fields with
  | nil => simp [prunedFields, fieldOf?]
  | cons field rest ih =>
    obtain ⟨key, value⟩ := field
    rw [prunedFields_cons, fieldOf?_cons]
    by_cases hkey : key = name
    · subst hkey
      rw [if_pos rfl, Option.map_some]
      by_cases hfield : key ∈ tag.fieldNames
      · rw [if_pos hfield, if_pos hfield, fieldOf?_cons, if_pos rfl]
      · rw [if_neg hfield, if_neg hfield, ih, if_neg hfield]
    · rw [if_neg hkey, ← ih]
      by_cases hfield : key ∈ tag.fieldNames
      · rw [if_pos hfield, fieldOf?_cons, if_neg hkey]
      · rw [if_neg hfield]

/-- Whether two values are the same but for the order of fields: objects have the same names, and the
same values under each of them. -/
inductive Same : Json → Json → Prop
  | refl (value : Json) : Same value value
  | object {xs ys : List (Text × Json)}
    (hnames : ∀ name, (fieldOf? name xs).isSome = (fieldOf? name ys).isSome)
    (hvalues : ∀ name x y, fieldOf? name xs = some x → fieldOf? name ys = some y → Same x y) :
    Same (.object xs) (.object ys)

/-- A node whose fields are written one by one is what is left of an object, if each of them holds what
is left there. -/
theorem Same.of_fields {tag : Tag} {written fields : List (Text × Json)}
    (hnames : written.map (·.1) = tag.fieldNames)
    (hfields : ∀ field ∈ written, ∃ value, fieldOf? field.1 fields = some value ∧
      Same field.2 (prunedAt tag field.1 value)) :
    Same (.object written) (.object (prunedFields tag fields)) := by
  apply Same.object
  · intro name
    rw [fieldOf?_prunedFields, Bool.eq_iff_iff, isSome_fieldOf?_iff, hnames]
    by_cases hname : name ∈ tag.fieldNames
    · rw [← hnames] at hname
      obtain ⟨field, hfield, rfl⟩ := List.mem_map.1 hname
      obtain ⟨value, hvalue, -⟩ := hfields field hfield
      rw [hnames] at hname
      simp [hname, hvalue]
    · simp [hname]
  · intro name x y hx hy
    have hmem := mem_of_fieldOf? hx
    have hname : name ∈ tag.fieldNames := by
      rw [← hnames]
      exact List.mem_map_of_mem hmem
    obtain ⟨value, hvalue, hsame⟩ := hfields (name, x) hmem
    rw [fieldOf?_prunedFields, if_pos hname, hvalue, Option.map_some, Option.some.injEq] at hy
    rw [← hy]
    exact hsame

theorem pruned_object (tag : Tag) {fields : List (Text × Json)}
    (htag : fieldOf? "type" fields = some (.string tag.name)) :
    pruned (.object fields) = .object (prunedFields tag fields) := by
  have hkind : tagOf? fields = some tag := by
    rw [tagOf?, htag]
    exact Tag.ofName?_name tag
  rw [pruned, hkind]

/-- Texts that are no parts of a node are left as they are. -/
theorem same_prunedAt_string {tag : Tag} {name : Text} (h : name ∉ tag.partNames) (s : Text) :
    Same (.string s) (prunedAt tag name (.string s)) := by
  rw [prunedAt, if_neg h, Tag.converted_string]
  exact .refl _

theorem same_prunedAt_part {tag : Tag} {name : Text} (h : name ∈ tag.partNames) {value part : Json}
    (hsame : Same part value.pruned) : Same part (prunedAt tag name value) := by
  rw [prunedAt, if_pos h]
  exact hsame

end Json

/-! ### Decoding one node -/

theorem bind_eq_error_iff {ε α β : Type} {x : Except ε α} {f : α → Except ε β} {e : ε} :
    (x >>= f) = .error e ↔ x = .error e ∨ ∃ a, x = .ok a ∧ f a = .error e := by
  cases x with
  | error e => simp [bind, Except.bind]
  | ok a => simp [bind, Except.bind]

namespace Decoded

theorem bind_eq_ok_iff {α β : Type} {x : Decoded α} {f : α → Decoded β} {b : β} :
    (x >>= f) = .ok b ↔ ∃ a, x = .ok a ∧ f a = .ok b := by
  cases x with
  | error e => simp [bind, Except.bind]
  | ok a => simp [bind, Except.bind]

theorem ofOption_eq_ok_iff {α : Type} {fault : DecodeFault} {found : Option α} {a : α} :
    ofOption fault found = .ok a ↔ found = some a := by
  cases found with
  | none => simp [ofOption, fail]
  | some b => simp [ofOption]

theorem inside_eq_ok_iff {α : Type} {step : PathStep} {part : Decoded α} {a : α} :
    inside step part = .ok a ↔ part = .ok a := by
  cases part <;> simp [inside, Except.mapError]

end Decoded

open Decoded (bind_eq_ok_iff ofOption_eq_ok_iff inside_eq_ok_iff)

theorem requiredField_eq_ok_iff {name : Text} {fields : List (Text × Json)} {value : Json} :
    requiredField name fields = .ok value ↔ Json.fieldOf? name fields = some value :=
  ofOption_eq_ok_iff

theorem Operator.ofFields_eq_ok_iff {κ : Type} [Spelled κ] {fields : List (Text × Json)}
    {op : Operator κ} :
    ofFields fields = .ok op ↔ Json.fieldOf? "op" fields = some (.string op.text) := by
  constructor
  · intro h
    unfold ofFields at h
    obtain ⟨value, hvalue, h⟩ := bind_eq_ok_iff.1 h
    rw [requiredField_eq_ok_iff] at hvalue
    cases value with
    | string text =>
      cases h
      rw [hvalue, text_ofText]
    | _ => cases h
  · exact Expr.ofFields_op

theorem Tag.ofJson?_eq_some_iff {value : Json} {tag : Tag} :
    ofJson? value = some tag ↔ value = .string tag.name := by
  constructor
  · intro h
    cases value with
    | string s => rw [name_of_ofName? h]
    | _ => cases h
  · rintro rfl
    exact ofName?_name tag

namespace Expr

theorem decodePart_eq_ok_iff {step : PathStep} {name : Text} {fields : List (Text × Json)}
    {decode : Json → Decoded Expr} {e : Expr} :
    decodePart step name fields decode = .ok e
      ↔ ∃ part, Json.fieldOf? name fields = some part ∧ decode part = .ok e := by
  unfold decodePart
  simp only [bind_eq_ok_iff, requiredField_eq_ok_iff, inside_eq_ok_iff]

/-- What the fields of an object hold that is decoded to an expression, if `decode` decodes the parts. -/
inductive HeldBy (decode : Json → Decoded Expr) (fields : List (Text × Json)) : Expr → Prop
  | leaf {value : Json} {e : Expr} (kind : Leaf)
    (htag : Json.fieldOf? "type" fields = some (.string kind.name))
    (hvalue : Json.fieldOf? "value" fields = some value) (hleaf : decodeLeaf kind value = .ok e) :
    HeldBy decode fields e
  | binary {op : Operator BinaryOp} {l r : Json} {left right : Expr}
    (htag : Json.fieldOf? "type" fields = some (.string "binary"))
    (hop : Json.fieldOf? "op" fields = some (.string op.text))
    (hl : Json.fieldOf? "left" fields = some l) (hr : Json.fieldOf? "right" fields = some r)
    (hleft : decode l = .ok left) (hright : decode r = .ok right) :
    HeldBy decode fields (.binary op left right)
  | unary {op : Operator UnaryOp} {o : Json} {operand : Expr}
    (htag : Json.fieldOf? "type" fields = some (.string "unary"))
    (hop : Json.fieldOf? "op" fields = some (.string op.text))
    (ho : Json.fieldOf? "expr" fields = some o) (hoperand : decode o = .ok operand) :
    HeldBy decode fields (.unary op operand)

/-- With a level left, decoding gives what the fields of an object hold. -/
theorem decodeLevels_succ_eq_ok_iff {levels : ℕ} {value : Json} {e : Expr} :
    decodeLevels (levels + 1) value = .ok e
      ↔ ∃ fields, value = .object fields ∧ HeldBy (decodeLevels levels) fields e := by
  constructor
  · intro h
    cases value with
    | object fields =>
      refine ⟨fields, rfl, ?_⟩
      rw [decodeLevels] at h
      split at h
      · cases h
      · next tagValue htag =>
        split at h
        · cases h
        · next hkind =>
          rw [Tag.ofJson?_eq_some_iff.1 hkind] at htag
          simp only [bind_eq_ok_iff, Operator.ofFields_eq_ok_iff, decodePart_eq_ok_iff] at h
          obtain ⟨op, hop, left, ⟨l, hl, hleft⟩, right, ⟨r, hr, hright⟩, h⟩ := h
          cases h
          exact .binary htag hop hl hr hleft hright
        · next hkind =>
          rw [Tag.ofJson?_eq_some_iff.1 hkind] at htag
          simp only [bind_eq_ok_iff, Operator.ofFields_eq_ok_iff, decodePart_eq_ok_iff] at h
          obtain ⟨op, hop, operand, ⟨o, ho, hoperand⟩, h⟩ := h
          cases h
          exact .unary htag hop ho hoperand
        · next kind hkind =>
          rw [Tag.ofJson?_eq_some_iff.1 hkind] at htag
          obtain ⟨leaf, hvalue, hleaf⟩ := bind_eq_ok_iff.1 h
          exact .leaf kind htag (requiredField_eq_ok_iff.1 hvalue) hleaf
    | _ => cases h
  · rintro ⟨fields, rfl, h⟩
    cases h with
    | leaf kind htag hvalue hleaf =>
      have hkind : Tag.ofJson? (.string kind.name) = some (.leaf kind) := ofJson?_name (.leaf kind)
      simp only [decodeLevels, htag, hkind]
      exact bind_eq_ok_iff.2 ⟨_, requiredField_eq_ok_iff.2 hvalue, hleaf⟩
    | binary htag hop hl hr hleft hright =>
      have hkind : Tag.ofJson? (.string "binary") = some .binary := ofJson?_name .binary
      simp only [decodeLevels, htag, hkind, bind_eq_ok_iff, Operator.ofFields_eq_ok_iff,
        decodePart_eq_ok_iff]
      exact ⟨_, hop, _, ⟨_, hl, hleft⟩, _, ⟨_, hr, hright⟩, rfl⟩
    | unary htag hop ho hoperand =>
      have hkind : Tag.ofJson? (.string "unary") = some .unary := ofJson?_name .unary
      simp only [decodeLevels, htag, hkind, bind_eq_ok_iff, Operator.ofFields_eq_ok_iff,
        decodePart_eq_ok_iff]
      exact ⟨_, hop, _, ⟨_, ho, hoperand⟩, rfl⟩

/-- An integer serves as the binary64 number nearest to it. -/
theorem decodeLeaf_integer_eq_ok_iff {n : ℤ} {e : Expr} :
    decodeLeaf .float (.int n) = .ok e
      ↔ ∃ x, Binary64.ofInt? n = some x ∧ e = .literal (.float x) := by
  constructor
  · intro h
    -- what the integer is rounded to stays closed, since it is too long to be computed with
    obtain ⟨x, hx, h⟩ := bind_eq_ok_iff.1 h
    cases h
    exact ⟨x, ofOption_eq_ok_iff.1 hx, rfl⟩
  · rintro ⟨x, hx, rfl⟩
    exact bind_eq_ok_iff.2 ⟨x, ofOption_eq_ok_iff.2 hx, rfl⟩

/-- An integer that overflows does not. -/
theorem decodeLeaf_of_overflow {n : ℤ} (hn : Binary64.overflow ≤ n.natAbs) :
    decodeLeaf .float (.int n) = .error (.defect ⟨.outOfRange, []⟩) := by
  have hnone : Binary64.ofInt? n = none := by
    rw [← Option.not_isSome_iff_eq_none, Binary64.isSome_ofInt?_iff]
    exact Nat.not_lt.2 hn
  have hfound : ofOption .outOfRange (Binary64.ofInt? n) = .error (.defect ⟨.outOfRange, []⟩) := by
    rw [hnone]
    rfl
  unfold decodeLeaf
  dsimp only
  rw [hfound]
  rfl

/-- A leaf is decoded from what it admits, and its stored form holds this value, converted. -/
theorem decodeLeaf_spec {kind : Leaf} {value : Json} {e : Expr} (h : decodeLeaf kind value = .ok e) :
    kind.Admits value ∧ e.height = 1 ∧
      e.encode
        = .object [("type", .string kind.name), ("value", (Tag.leaf kind).converted value)] := by
  cases kind with
  | string =>
    cases value with
    | string s => cases h; exact ⟨.string s, rfl, rfl⟩
    | _ => cases h
  | int =>
    cases value with
    | int n => cases h; exact ⟨.int n, rfl, rfl⟩
    | _ => cases h
  | float =>
    cases value with
    | float x => cases h; exact ⟨.float x, rfl, rfl⟩
    | int n =>
      obtain ⟨x, hx, rfl⟩ := decodeLeaf_integer_eq_ok_iff.1 h
      have hsmall : n.natAbs < Binary64.overflow := by
        rw [← Binary64.isSome_ofInt?_iff, hx]
        rfl
      have hconverted : (Tag.leaf .float).converted (.int n) = .float x := by
        rw [Tag.converted, hx, Option.elim]
      rw [hconverted]
      exact ⟨.integer hsmall, rfl, rfl⟩
    | _ => cases h
  | bool =>
    cases value with
    | bool b => cases h; exact ⟨.bool b, rfl, rfl⟩
    | _ => cases h
  | ident =>
    cases value with
    | string s => cases h; exact ⟨.ident s, rfl, rfl⟩
    | _ => cases h

theorem exists_decodeLeaf {kind : Leaf} {value : Json} (h : kind.Admits value) :
    ∃ e, decodeLeaf kind value = .ok e := by
  cases h with
  | integer hn =>
    obtain ⟨x, hx⟩ := Option.isSome_iff_exists.1 ((Binary64.isSome_ofInt?_iff _).2 hn)
    exact ⟨_, decodeLeaf_integer_eq_ok_iff.2 ⟨x, hx, rfl⟩⟩
  | _ => exact ⟨_, rfl⟩

/-! ### Decoding all levels -/

/-- What is decoded has as many levels at most as may be read. -/
theorem height_le_of_decodeLevels {levels : ℕ} {value : Json} {e : Expr}
    (h : decodeLevels levels value = .ok e) : e.height ≤ levels := by
  induction levels generalizing value e with
  | zero => cases h
  | succ levels ih =>
    obtain ⟨fields, rfl, hfields⟩ := decodeLevels_succ_eq_ok_iff.1 h
    cases hfields with
    | leaf _ _ _ hleaf =>
      rw [(decodeLeaf_spec hleaf).2.1]
      omega
    | binary _ _ _ _ hleft hright =>
      have hl := ih hleft
      have hr := ih hright
      rw [height]
      omega
    | unary _ _ _ hoperand =>
      have ho := ih hoperand
      rw [height]
      omega

/-- On each level the nodes that can be decoded are those of the schema. -/
theorem exists_decodeLevels_iff {level levels : ℕ} (hlevel : level + levels = 65) (value : Json) :
    (∃ e, decodeLevels levels value = .ok e) ↔ Json.IsNode level value := by
  induction levels generalizing level value with
  | zero =>
    constructor
    · rintro ⟨e, h⟩
      cases h
    · intro h
      have hle := h.level_le
      omega
  | succ levels ih =>
    have hle : level ≤ 64 := by omega
    have hpart : ∀ part, (∃ e, decodeLevels levels part = .ok e) ↔ Json.IsNode (level + 1) part := by
      intro part
      apply ih
      omega
    constructor
    · rintro ⟨e, h⟩
      obtain ⟨fields, rfl, hfields⟩ := decodeLevels_succ_eq_ok_iff.1 h
      cases hfields with
      | leaf kind htag hvalue hleaf => exact .leaf hle kind htag hvalue (decodeLeaf_spec hleaf).1
      | binary htag hop hl hr hleft hright =>
        exact .binary hle htag hop hl hr ((hpart _).1 ⟨_, hleft⟩) ((hpart _).1 ⟨_, hright⟩)
      | unary htag hop ho hoperand =>
        exact .unary hle htag hop ho ((hpart _).1 ⟨_, hoperand⟩)
    · intro h
      cases h with
      | leaf _ kind htag hvalue hadmits =>
        obtain ⟨e, he⟩ := exists_decodeLeaf hadmits
        exact ⟨e, decodeLevels_succ_eq_ok_iff.2 ⟨_, rfl, .leaf kind htag hvalue he⟩⟩
      | @binary _ _ op _ _ _ htag hop hleft hright hl hr =>
        obtain ⟨left, hl⟩ := (hpart _).2 hl
        obtain ⟨right, hr⟩ := (hpart _).2 hr
        rw [← Operator.text_ofText (κ := BinaryOp) op] at hop
        exact ⟨_, decodeLevels_succ_eq_ok_iff.2 ⟨_, rfl, .binary htag hop hleft hright hl hr⟩⟩
      | @unary _ _ op _ _ htag hop hoperand ho =>
        obtain ⟨operand, ho⟩ := (hpart _).2 ho
        rw [← Operator.text_ofText (κ := UnaryOp) op] at hop
        exact ⟨_, decodeLevels_succ_eq_ok_iff.2 ⟨_, rfl, .unary htag hop hoperand ho⟩⟩

/-- What is decoded is stored as what is left of the stored form. -/
theorem same_encode_pruned {levels : ℕ} {value : Json} {e : Expr}
    (h : decodeLevels levels value = .ok e) : Json.Same e.encode value.pruned := by
  induction levels generalizing value e with
  | zero => cases h
  | succ levels ih =>
    obtain ⟨fields, rfl, hfields⟩ := decodeLevels_succ_eq_ok_iff.1 h
    cases hfields with
    | leaf kind htag hvalue hleaf =>
      rw [Json.pruned_object (.leaf kind) htag, (decodeLeaf_spec hleaf).2.2]
      apply Json.Same.of_fields rfl
      simp only [List.forall_mem_cons]
      exact ⟨⟨_, htag, Json.same_prunedAt_string List.not_mem_nil _⟩, ⟨_, hvalue, .refl _⟩, by simp⟩
    | binary htag hop hl hr hleft hright =>
      rw [Json.pruned_object .binary htag]
      apply Json.Same.of_fields rfl
      simp only [List.forall_mem_cons]
      exact ⟨⟨_, htag, Json.same_prunedAt_string (by decide) _⟩,
        ⟨_, hop, Json.same_prunedAt_string (by decide) _⟩,
        ⟨_, hl, Json.same_prunedAt_part (by decide) (ih hleft)⟩,
        ⟨_, hr, Json.same_prunedAt_part (by decide) (ih hright)⟩, by simp⟩
    | unary htag hop ho hoperand =>
      rw [Json.pruned_object .unary htag]
      apply Json.Same.of_fields rfl
      simp only [List.forall_mem_cons]
      exact ⟨⟨_, htag, Json.same_prunedAt_string (by decide) _⟩,
        ⟨_, hop, Json.same_prunedAt_string (by decide) _⟩,
        ⟨_, ho, Json.same_prunedAt_part (by decide) (ih hoperand)⟩, by simp⟩

end Expr

end FeatureToggles
