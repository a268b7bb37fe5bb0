import FeatureToggles.Expr.Eval
import FeatureToggles.Expr.Wire
import FeatureToggles.Proofs.JsonText
import FeatureToggles.Proofs.Levels

/-!
# Expressions stored and read back

The stored form of an expression is decoded to this expression, or else the first node below the
levels that are read is reported. The text of the stored form is read as the stored form, so an
expression is not changed by storing it.
-/

namespace FeatureToggles.Expr

open Decoded (fail inside)

/-! ### Stored forms -/

/-- The spelling of an operator is read as this operator, whether it is known or not. -/
theorem ofFields_op {κ : Type} [Spelled κ] {op : Operator κ} {fields : List (Text × Json)}
    (h : Json.fieldOf? "op" fields = some (.string op.text)) : Operator.ofFields fields = .ok op := by
  have hfield : requiredField "op" fields = .ok (.string op.text) := by
    rw [requiredField, h, Decoded.ofOption]
  rw [Operator.ofFields, hfield]
  exact congrArg Except.ok (Operator.ofText_text op)

theorem ofJson?_name (tag : Tag) : Tag.ofJson? (.string tag.name) = some tag :=
  Tag.ofName?_name tag

theorem decodeLevels_encode_literal (levels : ℕ) (value : Literal) :
    decodeLevels (levels + 1) (literal value).encode = .ok (literal value) := by
  cases value <;> rfl

theorem decodeLevels_encode_ident (levels : ℕ) (name : Text) :
    decodeLevels (levels + 1) (ident name).encode = .ok (ident name) :=
  rfl

/-- The left part is decoded first. -/
theorem decodeLevels_encode_binary (levels : ℕ) (op : Operator BinaryOp) (left right : Expr) :
    decodeLevels (levels + 1) (binary op left right).encode
      = (inside .left (decodeLevels levels left.encode) >>= fun left =>
          inside .right (decodeLevels levels right.encode) >>= fun right =>
            .ok (binary op left right)) := by
  have hop : Operator.ofFields [("type", .string Tag.binary.name), ("op", .string op.text),
      ("left", left.encode), ("right", right.encode)] = .ok op := ofFields_op rfl
  have htag := ofJson?_name .binary
  simp only [encode, decodeLevels, Json.fieldOf?, List.find?_cons, decide_true, Option.map_some, htag,
    hop]
  rfl

theorem decodeLevels_encode_unary (levels : ℕ) (op : Operator UnaryOp) (operand : Expr) :
    decodeLevels (levels + 1) (unary op operand).encode
      = (inside .operand (decodeLevels levels operand.encode) >>= fun operand =>
          .ok (unary op operand)) := by
  have hop : Operator.ofFields [("type", .string Tag.unary.name), ("op", .string op.text),
      ("expr", operand.encode)] = .ok op := ofFields_op rfl
  have htag := ofJson?_name .unary
  simp only [encode, decodeLevels, Json.fieldOf?, List.find?_cons, decide_true, Option.map_some, htag,
    hop]
  rfl

/-- With enough levels the expression is decoded. -/
theorem decodeLevels_encode {levels : ℕ} {e : Expr} (h : e.height ≤ levels) :
    decodeLevels levels e.encode = .ok e := by
  induction levels generalizing e with
  | zero =>
    have hpos := e.height_pos
    omega
  | succ levels ih =>
    cases e with
    | literal value => exact decodeLevels_encode_literal levels value
    | ident name => exact decodeLevels_encode_ident levels name
    | binary op left right =>
      rw [height] at h
      rw [decodeLevels_encode_binary, ih (by omega), ih (by omega)]
      rfl
    | unary op operand =>
      rw [height] at h
      rw [decodeLevels_encode_unary, ih (by omega)]
      rfl

/-- With too few levels the first node below them is reported. -/
theorem decodeLevels_encode_error {levels : ℕ} {e : Expr} {path : List PathStep}
    (h : e.firstBelow levels = some path) :
    decodeLevels levels e.encode = .error (.defect ⟨.tooDeep, path⟩) := by
  induction levels generalizing e path with
  | zero =>
    rw [firstBelow_zero] at h
    cases h
    rfl
  | succ levels ih =>
    cases e with
    | literal value => simp [firstBelow, preorder] at h
    | ident name => simp [firstBelow, preorder] at h
    | binary op left right =>
      rw [firstBelow_binary] at h
      rw [decodeLevels_encode_binary]
      -- the right part is decoded only if the left one does not go too deep
      cases hleft : left.firstBelow levels with
      | some before =>
        rw [hleft] at h
        cases h
        rw [ih hleft]
        rfl
      | none =>
        rw [hleft] at h
        obtain ⟨after, hright, rfl⟩ := Option.map_eq_some_iff.1 h
        rw [decodeLevels_encode (firstBelow_eq_none_iff.1 hleft), ih hright]
        rfl
    | unary op operand =>
      rw [firstBelow_unary] at h
      obtain ⟨below, hbelow, rfl⟩ := Option.map_eq_some_iff.1 h
      rw [decodeLevels_encode_unary, ih hbelow]
      rfl

/-! ### Stored texts -/

/-- The integers that an expression holds. -/
def integers : Expr → List ℤ
  | literal (.int n) => [n]
  | literal _ => []
  | ident _ => []
  | binary _ left right => left.integers ++ right.integers
  | unary _ operand => operand.integers

/-- Whether the text of every integer within can be read. -/
def HasShortIntegers (e : Expr) : Prop :=
  ∀ n ∈ e.integers, (Decimal.digits n.natAbs).length ≤ Decimal.maxIntegerDigits

/-- The texts that an expression holds: its strings and names, and the spellings of its operators. -/
def texts : Expr → List Text
  | literal (.string s) => [s]
  | literal _ => []
  | ident name => [name]
  | binary op left right => op.text :: (left.texts ++ right.texts)
  | unary op operand => op.text :: operand.texts

/-- Whether no text within has a high surrogate directly before a low one, with which it would be read as a
pair. -/
def HasUnpairedTexts (e : Expr) : Prop :=
  ∀ s ∈ e.texts, s.isUnpaired = true

instance (e : Expr) : Decidable e.HasUnpairedTexts :=
  inferInstanceAs (Decidable (∀ s ∈ e.texts, s.isUnpaired = true))

end Expr

/-- The value with the pairs of surrogates of a text joined. -/
def Literal.joined : Literal → Literal
  | string s => string s.joined
  | value => value

/-- The operator whose spelling has its pairs of surrogates joined. -/
def Operator.joined {κ : Type} [Spelled κ] (op : Operator κ) : Operator κ :=
  ofText op.text.joined

theorem Operator.joined_eq_self {κ : Type} [Spelled κ] {op : Operator κ} (h : op.text.isUnpaired = true) :
    op.joined = op := by
  rw [joined, Text.joined_eq_self h, ofText_text]

namespace Expr

/-- The expression with the pairs of surrogates of all texts within joined. -/
def joined : Expr → Expr
  | literal value => literal value.joined
  | ident name => ident name.joined
  | binary op left right => binary op.joined left.joined right.joined
  | unary op operand => unary op.joined operand.joined

theorem joined_eq_self {e : Expr} (h : e.HasUnpairedTexts) : e.joined = e := by
  induction e with
  | literal value =>
    cases value with
    | string s => rw [joined, Literal.joined, Text.joined_eq_self (h s (List.mem_singleton_self s))]
    | _ => rfl
  | ident name => rw [joined, Text.joined_eq_self (h name (List.mem_singleton_self name))]
  | binary op left right ihleft ihright =>
    obtain ⟨hop, hparts⟩ := List.forall_mem_cons.1 h
    obtain ⟨hleft, hright⟩ := List.forall_mem_append.1 hparts
    rw [joined, Operator.joined_eq_self hop, ihleft hleft, ihright hright]
  | unary op operand ih =>
    obtain ⟨hop, hoperand⟩ := List.forall_mem_cons.1 h
    rw [joined, Operator.joined_eq_self hop, ih hoperand]

theorem height_joined (e : Expr) : e.joined.height = e.height := by
  induction e with
  | literal value => rfl
  | ident name => rfl
  | binary op left right ihleft ihright => rw [joined, height, height, ihleft, ihright]
  | unary op operand ih => rw [joined, height, height, ih]

theorem integers_joined (e : Expr) : e.joined.integers = e.integers := by
  induction e with
  | literal value => cases value <;> rfl
  | ident name => rfl
  | binary op left right ihleft ihright => rw [joined, integers, integers, ihleft, ihright]
  | unary op operand ih => rw [joined, integers, integers, ih]

section

variable [JsonLibrary]

theorem readsAs_toJson {value : Literal} (h : (literal value).HasShortIntegers) (k : ℕ) :
    Json.ReadsAs k value.toJson value.joined.toJson := by
  cases value with
  | string s => exact Json.readsAs_string k s
  | int n => exact Json.readsAs_self (.int k (h n (List.mem_singleton_self n))) rfl
  | float x => exact Json.readsAs_self (.float k x) rfl
  | bool b => exact Json.readsAs_self (.bool k b) rfl

/-- The fields that every node starts with. -/
theorem fieldReadsAs_text (k : ℕ) (name : String) (s : Text) :
    Json.FieldReadsAs k (name, .string s) (name, .string s.joined) :=
  ⟨Text.joined_ofString name, Json.readsAs_string k s⟩

theorem fieldReadsAs_type (k : ℕ) (tag : Tag) :
    Json.FieldReadsAs k ("type", .string tag.name) ("type", .string tag.name) := by
  have hname : tag.name.joined = tag.name := by
    rcases tag with kind | _ | _
    · cases kind <;> exact Text.joined_ofString _
    · exact Text.joined_ofString _
    · exact Text.joined_ofString _
  have hfield := fieldReadsAs_text k "type" tag.name
  rwa [hname] at hfield

theorem fieldReadsAs_op {κ : Type} [Spelled κ] (k : ℕ) (op : Operator κ) :
    Json.FieldReadsAs k ("op", .string op.text) ("op", .string op.joined.text) := by
  have hfield := fieldReadsAs_text k "op" op.text
  rwa [← Operator.text_ofText (κ := κ) op.text.joined] at hfield

/-- A stored form has one container for each node, and its containers nest as the nodes do. -/
theorem readsAs_encode {e : Expr} (h : e.HasShortIntegers) {k : ℕ} (hk : e.height ≤ k) :
    Json.ReadsAs k e.encode e.joined.encode := by
  -- one level of the tree is one container, so the induction is on the containers that are left
  induction k generalizing e with
  | zero =>
    have hpos := e.height_pos
    omega
  | succ k ih =>
    cases e with
    | literal value =>
      have hkind : value.joined.kind = value.kind := by cases value <;> rfl
      have hvalue := readsAs_toJson h k
      rw [joined, encode, encode, hkind]
      exact Json.readsAs_object (by simp)
        (.cons (fieldReadsAs_type k (.leaf value.kind)) (.cons ⟨Text.joined_ofString _, hvalue⟩ .nil))
    | ident name =>
      exact Json.readsAs_object (by simp)
        (.cons (fieldReadsAs_type k (.leaf .ident)) (.cons (fieldReadsAs_text k "value" name) .nil))
    | binary op left right =>
      rw [height] at hk
      have hleft : Json.ReadsAs k left.encode left.joined.encode :=
        ih (fun n hn => h n (List.mem_append_left _ hn)) (by omega)
      have hright : Json.ReadsAs k right.encode right.joined.encode :=
        ih (fun n hn => h n (List.mem_append_right _ hn)) (by omega)
      exact Json.readsAs_object (by simp)
        (.cons (fieldReadsAs_type k .binary) (.cons (fieldReadsAs_op k op)
          (.cons ⟨Text.joined_ofString _, hleft⟩ (.cons ⟨Text.joined_ofString _, hright⟩ .nil))))
    | unary op operand =>
      rw [height] at hk
      have hoperand : Json.ReadsAs k operand.encode operand.joined.encode := ih h (by omega)
      exact Json.readsAs_object (by simp)
        (.cons (fieldReadsAs_type k .unary) (.cons (fieldReadsAs_op k op)
          (.cons ⟨Text.joined_ofString _, hoperand⟩ .nil)))

/-- An expression that is not too deep is what the text of its stored form holds, with pairs of surrogates
joined. -/
theorem decode_text {e : Expr} (h : e.HasShortIntegers) (hdepth : e.depth ≤ maxDepth) :
    (StoredJson.ofText (Json.write e.encode) >>= decode) = .ok e.joined := by
  have hheight : e.height ≤ maxDepth := depth_eq_height e ▸ hdepth
  rw [StoredJson.ofText_of_readsAs (readsAs_encode h (le_trans hheight (JsonLibrary.room (by decide))))]
  exact decodeLevels_encode (height_joined e ▸ hheight)

/-- **Round trip.** An expression of at most 64 levels whose integers are not too long and whose texts have no
pairs of surrogates is not changed by storing it as text, and has the same value afterwards. The stored form
of any deeper one is refused, at the first node that stands below these levels. -/
theorem stored_round_trip (e : Expr) :
    (e.HasShortIntegers → e.HasUnpairedTexts → e.depth ≤ 64 →
      (StoredJson.ofText (Json.write e.encode) >>= decode) = .ok e ∧
      ∀ metadata : Metadata, (StoredJson.ofText (Json.write e.encode) >>= decode).map (eval metadata)
        = .ok (e.eval metadata)) ∧
    (64 < e.depth → ∃ path, e.preorder.find? (·.length + 1 = 65) = some path ∧
      decode e.encode = .error (.defect ⟨.tooDeep, path⟩) ∧
      (DecodeError.mk .tooDeep path).message
        = "expression is nested too deeply at " ++ pathText path) := by
  refine ⟨fun hintegers htexts hdepth => ?_, fun hdepth => ?_⟩
  · have hread := decode_text hintegers hdepth
    rw [joined_eq_self htexts] at hread
    exact ⟨hread, fun metadata => by rw [hread]; rfl⟩
  · have hbelow : e.firstBelow maxDepth ≠ none := by
      rw [Ne, firstBelow_eq_none_iff, ← depth_eq_height]
      exact Nat.not_le.2 hdepth
    obtain ⟨path, hpath⟩ := Option.ne_none_iff_exists'.1 hbelow
    refine ⟨path, ?_, decodeLevels_encode_error hpath, rfl⟩
    -- the path to a node on the level 65 has 64 steps
    rw [← hpath, firstBelow]
    congr 1
    funext p
    exact decide_eq_decide.2 (by rw [maxDepth]; omega)

end

attribute [local instance] JsonLibrary.terse

/-- A negative integer beside an operator that is not known, and a name behind seventy negations. -/
theorem stored_round_trip_negations :
    (StoredJson.ofText (Json.write
        (binary (.other "~" rfl) (literal (.int (-12))) (ident "user")).encode) >>= decode)
      = .ok (binary (.other "~" rfl) (literal (.int (-12))) (ident "user")) ∧
    ∃ path, (Nat.iterate (unary (.known .not)) 70 (ident "user")).preorder.find? (·.length + 1 = 65)
        = some path ∧
      decode (Nat.iterate (unary (.known .not)) 70 (ident "user")).encode = .error (.defect ⟨.tooDeep, path⟩) ∧
      (DecodeError.mk .tooDeep path).message
        = "expression is nested too deeply at " ++ pathText path := by
  refine ⟨((stored_round_trip _).1 ?_ ?_ ?_).1, (stored_round_trip _).2 ?_⟩
  · intro n hn
    rw [List.mem_singleton.1 (show n ∈ [(-12 : ℤ)] from hn)]
    exact Decimal.length_digits_le (by decide) (lt_of_lt_of_le (b := 10 ^ 2) (by decide)
      (Nat.pow_le_pow_right (by decide) (by decide)))
  · decide
  · rw [depth_eq_height]
    decide
  · rw [depth_eq_height]
    decide

end FeatureToggles.Expr
