import FeatureToggles.Proofs.Validation

/-!
# Where decoding fails

A stored expression that is not decoded has a node that is defective by itself (`Defect`), to which the
path of the error leads (`Leads`). It is the first such node: whatever stands to the left of the path is
decoded. A list of rules fails with its first item that is not decoded.
-/

namespace FeatureToggles

open Decoded (fail inside ofOption)

/-! ### Defects of one node -/

/-- What a leaf refuses as its value, and why. -/
inductive Leaf.Refuses : Leaf → Json → DecodeFault → Prop
  | value {kind : Leaf} {value : Json} (hvalue : ¬kind.Admits value)
    (hinteger : kind = .float → ∀ n, value ≠ .int n) : Refuses kind value (.wrongValue kind)
  | overflow {n : ℤ} (hn : Binary64.overflow ≤ n.natAbs) : Refuses .float (.int n) .outOfRange

namespace Expr

/-- What is wrong with a node of which `levels` levels may be read, whatever its parts are; a missing right
part is found when the left one has been decoded. -/
inductive Defect : ℕ → Json → DecodeFault → Prop
  | tooDeep {value : Json} : Defect 0 value .tooDeep
  | notObject {levels : ℕ} {value : Json} (hvalue : ∀ fields, value ≠ .object fields) :
    Defect (levels + 1) value .notObject
  | noTag {levels : ℕ} {fields : List (Text × Json)} (htag : Json.fieldOf? "type" fields = none) :
    Defect (levels + 1) (.object fields) .noTag
  | unknownTag {levels : ℕ} {fields : List (Text × Json)} {value : Json}
    (htag : Json.fieldOf? "type" fields = some value) (hunknown : ∀ tag : Tag, value ≠ .string tag.name) :
    Defect (levels + 1) (.object fields) (.unknownTag value)
  | noValue {levels : ℕ} {fields : List (Text × Json)} (kind : Leaf)
    (htag : Json.fieldOf? "type" fields = some (.string kind.name))
    (hvalue : Json.fieldOf? "value" fields = none) :
    Defect (levels + 1) (.object fields) (.missingField "value")
  | wrongValue {levels : ℕ} {fields : List (Text × Json)} {value : Json} {fault : DecodeFault} (kind : Leaf)
    (htag : Json.fieldOf? "type" fields = some (.string kind.name))
    (hvalue : Json.fieldOf? "value" fields = some value) (hrefuses : kind.Refuses value fault) :
    Defect (levels + 1) (.object fields) fault
  | noOperator {levels : ℕ} {fields : List (Text × Json)} {tag : Text}
    (hcomposite : tag = "binary" ∨ tag = "unary")
    (htag : Json.fieldOf? "type" fields = some (.string tag)) (hop : Json.fieldOf? "op" fields = none) :
    Defect (levels + 1) (.object fields) (.missingField "op")
  | operatorNotText {levels : ℕ} {fields : List (Text × Json)} {tag : Text} {op : Json}
    (hcomposite : tag = "binary" ∨ tag = "unary")
    (htag : Json.fieldOf? "type" fields = some (.string tag)) (hop : Json.fieldOf? "op" fields = some op)
    (htext : ∀ text, op ≠ .string text) : Defect (levels + 1) (.object fields) .operatorNotText
  | noLeft {levels : ℕ} {fields : List (Text × Json)} {op : Text}
    (htag : Json.fieldOf? "type" fields = some (.string "binary"))
    (hop : Json.fieldOf? "op" fields = some (.string op)) (hleft : Json.fieldOf? "left" fields = none) :
    Defect (levels + 1) (.object fields) (.missingField "left")
  | noRight {levels : ℕ} {fields : List (Text × Json)} {op : Text} {left : Json} {e : Expr}
    (htag : Json.fieldOf? "type" fields = some (.string "binary"))
    (hop : Json.fieldOf? "op" fields = some (.string op)) (hleft : Json.fieldOf? "left" fields = some left)
    (hdecoded : decodeLevels levels left = .ok e) (hright : Json.fieldOf? "right" fields = none) :
    Defect (levels + 1) (.object fields) (.missingField "right")
  | noOperand {levels : ℕ} {fields : List (Text × Json)} {op : Text}
    (htag : Json.fieldOf? "type" fields = some (.string "unary"))
    (hop : Json.fieldOf? "op" fields = some (.string op)) (hoperand : Json.fieldOf? "expr" fields = none) :
    Defect (levels + 1) (.object fields) (.missingField "expr")

/-- The part of a node that a step leads to, if `levels` levels of it may be read and all that stands before
it in the node has been decoded. -/
inductive StepsTo (levels : ℕ) : Json → PathStep → Json → Prop
  | left {fields : List (Text × Json)} {op : Text} {part : Json}
    (htag : Json.fieldOf? "type" fields = some (.string "binary"))
    (hop : Json.fieldOf? "op" fields = some (.string op)) (hpart : Json.fieldOf? "left" fields = some part) :
    StepsTo levels (.object fields) .left part
  | right {fields : List (Text × Json)} {op : Text} {before part : Json} {e : Expr}
    (htag : Json.fieldOf? "type" fields = some (.string "binary"))
    (hop : Json.fieldOf? "op" fields = some (.string op))
    (hbefore : Json.fieldOf? "left" fields = some before) (hdecoded : decodeLevels levels before = .ok e)
    (hpart : Json.fieldOf? "right" fields = some part) : StepsTo levels (.object fields) .right part
  | operand {fields : List (Text × Json)} {op : Text} {part : Json}
    (htag : Json.fieldOf? "type" fields = some (.string "unary"))
    (hop : Json.fieldOf? "op" fields = some (.string op)) (hpart : Json.fieldOf? "expr" fields = some part) :
    StepsTo levels (.object fields) .operand part

/-- `Leads levels value path below node`: the path leads from the value, of which `levels` levels may be
read, to the node, of which `below` levels may be read, and all that stands before the path is decoded. -/
inductive Leads : ℕ → Json → List PathStep → ℕ → Json → Prop
  | here {levels : ℕ} {value : Json} : Leads levels value [] levels value
  | step {levels below : ℕ} {value part node : Json} {step : PathStep} {path : List PathStep}
    (hstep : StepsTo levels value step part) (hpath : Leads levels part path below node) :
    Leads (levels + 1) value (step :: path) below node

end Expr

/-! ### What a field is refused for -/

theorem requiredField_eq_error_iff {name : Text} {fields : List (Text × Json)} {failure : Undecoded} :
    requiredField name fields = .error failure
      ↔ Json.fieldOf? name fields = none ∧ failure = .ofError ⟨.missingField name, []⟩ := by
  rw [requiredField]
  cases Json.fieldOf? name fields with
  | none =>
    simp only [ofOption, fail, Except.error.injEq, true_and]
    exact eq_comm
  | some value => simp [ofOption]

theorem Decoded.inside_eq_error_iff {α : Type} {step : PathStep} {part : Decoded α} {failure : Undecoded} :
    inside step part = .error failure ↔ ∃ e, part = .error e ∧ failure = e.under step := by
  cases part with
  | error e =>
    simp only [inside, Except.mapError, Except.error.injEq, exists_eq_left']
    exact eq_comm
  | ok a => simp [inside, Except.mapError]

theorem Operator.ofFields_eq_error_iff {κ : Type} [Spelled κ] {fields : List (Text × Json)}
    {failure : Undecoded} :
    (ofFields fields : Decoded (Operator κ)) = .error failure
      ↔ (Json.fieldOf? "op" fields = none ∧ failure = .ofError ⟨.missingField "op", []⟩) ∨
        ∃ op, Json.fieldOf? "op" fields = some op ∧ (∀ text, op ≠ .string text) ∧
          failure = .ofError ⟨.operatorNotText, []⟩ := by
  unfold ofFields
  rw [bind_eq_error_iff, requiredField_eq_error_iff]
  refine or_congr_right (exists_congr fun op => ?_)
  rw [requiredField_eq_ok_iff]
  refine and_congr_right fun _ => ?_
  cases op with
  | string text => simp [pure, Except.pure]
  | _ => simp [fail, eq_comm]

namespace Expr

theorem decodePart_eq_error_iff {step : PathStep} {name : Text} {fields : List (Text × Json)}
    {decode : Json → Decoded Expr} {failure : Undecoded} :
    decodePart step name fields decode = .error failure
      ↔ (Json.fieldOf? name fields = none ∧ failure = .ofError ⟨.missingField name, []⟩) ∨
        ∃ part e, Json.fieldOf? name fields = some part ∧ decode part = .error e ∧
          failure = e.under step := by
  unfold decodePart
  rw [bind_eq_error_iff, requiredField_eq_error_iff]
  refine or_congr_right (exists_congr fun part => ?_)
  rw [requiredField_eq_ok_iff, Decoded.inside_eq_error_iff, exists_and_left]

/-- A value that is neither admitted nor an integer for a binary64 number is of the wrong kind. -/
theorem decodeLeaf_of_not_admits {kind : Leaf} {value : Json} (hvalue : ¬kind.Admits value)
    (hinteger : kind = .float → ∀ n, value ≠ .int n) :
    decodeLeaf kind value = .error (.ofError ⟨.wrongValue kind, []⟩) := by
  cases kind with
  | string =>
    cases value with
    | string s => exact absurd (.string s) hvalue
    | _ => rfl
  | int =>
    cases value with
    | int n => exact absurd (.int n) hvalue
    | _ => rfl
  | float =>
    cases value with
    | float x => exact absurd (.float x) hvalue
    | int n => exact absurd rfl (hinteger rfl n)
    | _ => rfl
  | bool =>
    cases value with
    | bool b => exact absurd (.bool b) hvalue
    | _ => rfl
  | ident =>
    cases value with
    | string s => exact absurd (.ident s) hvalue
    | _ => rfl

theorem decodeLeaf_eq_error_iff {kind : Leaf} {value : Json} {failure : Undecoded} :
    decodeLeaf kind value = .error failure
      ↔ ∃ fault, kind.Refuses value fault ∧ failure = .ofError ⟨fault, []⟩ := by
  constructor
  · intro h
    have hvalue : ¬kind.Admits value := by
      intro hadmits
      obtain ⟨e, he⟩ := exists_decodeLeaf hadmits
      rw [he] at h
      cases h
    by_cases hinteger : kind = .float ∧ ∃ n, value = .int n
    · obtain ⟨rfl, n, rfl⟩ := hinteger
      have hn : Binary64.overflow ≤ n.natAbs := by
        by_contra hn
        exact hvalue (.integer (Nat.not_le.1 hn))
      rw [decodeLeaf_of_overflow hn] at h
      cases h
      exact ⟨_, .overflow hn, rfl⟩
    · have hother : kind = .float → ∀ n, value ≠ .int n := fun hkind n hn => hinteger ⟨hkind, n, hn⟩
      rw [decodeLeaf_of_not_admits hvalue hother] at h
      cases h
      exact ⟨_, .value hvalue hother, rfl⟩
  · intro h
    obtain ⟨fault, hrefuses, rfl⟩ := h
    cases hrefuses with
    | value hvalue hinteger => exact decodeLeaf_of_not_admits hvalue hinteger
    | overflow hn => exact decodeLeaf_of_overflow hn

/-! ### Decoding one node -/

variable {levels : ℕ} {fields : List (Text × Json)} {failure : Undecoded}

theorem decodeLevels_leaf_eq_error_iff (kind : Leaf)
    (htag : Json.fieldOf? "type" fields = some (.string kind.name)) :
    decodeLevels (levels + 1) (.object fields) = .error failure
      ↔ (Json.fieldOf? "value" fields = none ∧ failure = .ofError ⟨.missingField "value", []⟩) ∨
        ∃ value, Json.fieldOf? "value" fields = some value ∧
          ∃ fault, kind.Refuses value fault ∧ failure = .ofError ⟨fault, []⟩ := by
  have hkind : Tag.ofJson? (.string kind.name) = some (.leaf kind) := ofJson?_name (.leaf kind)
  simp only [decodeLevels, htag, hkind, bind_eq_error_iff, requiredField_eq_error_iff,
    requiredField_eq_ok_iff, decodeLeaf_eq_error_iff]

theorem decodeLevels_binary_eq_error_iff (htag : Json.fieldOf? "type" fields = some (.string "binary")) :
    decodeLevels (levels + 1) (.object fields) = .error failure
      ↔ (Operator.ofFields fields : Decoded (Operator BinaryOp)) = .error failure ∨
        ∃ op : Operator BinaryOp, Json.fieldOf? "op" fields = some (.string op.text) ∧
          (decodePart .left "left" fields (decodeLevels levels) = .error failure ∨
            ∃ left, decodePart .left "left" fields (decodeLevels levels) = .ok left ∧
              decodePart .right "right" fields (decodeLevels levels) = .error failure) := by
  have hkind : Tag.ofJson? (.string "binary") = some .binary := ofJson?_name .binary
  simp [decodeLevels, htag, hkind, bind_eq_error_iff, Operator.ofFields_eq_ok_iff, pure, Except.pure]

theorem decodeLevels_unary_eq_error_iff (htag : Json.fieldOf? "type" fields = some (.string "unary")) :
    decodeLevels (levels + 1) (.object fields) = .error failure
      ↔ (Operator.ofFields fields : Decoded (Operator UnaryOp)) = .error failure ∨
        ∃ op : Operator UnaryOp, Json.fieldOf? "op" fields = some (.string op.text) ∧
          decodePart .operand "expr" fields (decodeLevels levels) = .error failure := by
  have hkind : Tag.ofJson? (.string "unary") = some .unary := ofJson?_name .unary
  simp [decodeLevels, htag, hkind, bind_eq_error_iff, Operator.ofFields_eq_ok_iff, pure, Except.pure]

/-- A composite node whose operator is refused is defective. -/
theorem defect_of_ofFields {κ : Type} [Spelled κ] {tag : Text}
    (hcomposite : tag = "binary" ∨ tag = "unary")
    (htag : Json.fieldOf? "type" fields = some (.string tag))
    (h : (Operator.ofFields fields : Decoded (Operator κ)) = .error failure) :
    ∃ fault, Defect (levels + 1) (.object fields) fault ∧ failure = .ofError ⟨fault, []⟩ := by
  rcases Operator.ofFields_eq_error_iff.1 h with ⟨hop, rfl⟩ | ⟨op, hop, htext, rfl⟩
  · exact ⟨_, .noOperator hcomposite htag hop, rfl⟩
  · exact ⟨_, .operatorNotText hcomposite htag hop htext, rfl⟩

/-- Any text is the spelling of an operator. -/
theorem exists_ofText (κ : Type) [Spelled κ] {op : Text}
    (hop : Json.fieldOf? "op" fields = some (.string op)) :
    ∃ known : Operator κ, Json.fieldOf? "op" fields = some (.string known.text) :=
  ⟨.ofText op, by rw [hop, Operator.text_ofText]⟩

/-- A node is not decoded because it is defective, or because a part of it is not decoded. -/
theorem defect_or_stepsTo_of_error {value : Json} (h : decodeLevels (levels + 1) value = .error failure) :
    (∃ fault, Defect (levels + 1) value fault ∧ failure = .ofError ⟨fault, []⟩) ∨
      ∃ step part e, StepsTo levels value step part ∧ decodeLevels levels part = .error e ∧
        failure = e.under step := by
  by_cases hobject : ∃ fields, value = .object fields
  · obtain ⟨fields, rfl⟩ := hobject
    cases htag : Json.fieldOf? "type" fields with
    | none =>
      simp only [decodeLevels, htag] at h
      cases h
      exact .inl ⟨_, .noTag htag, rfl⟩
    | some tagValue =>
      cases hkind : Tag.ofJson? tagValue with
      | none =>
        simp only [decodeLevels, htag, hkind] at h
        cases h
        refine .inl ⟨_, .unknownTag htag fun tag htext => ?_, rfl⟩
        rw [Tag.ofJson?_eq_some_iff.2 htext] at hkind
        cases hkind
      | some tag =>
        obtain rfl := Tag.ofJson?_eq_some_iff.1 hkind
        cases tag with
        | leaf kind =>
          rcases (decodeLevels_leaf_eq_error_iff kind htag).1 h with
            ⟨hvalue, rfl⟩ | ⟨value, hvalue, fault, hrefuses, rfl⟩
          · exact .inl ⟨_, .noValue kind htag hvalue, rfl⟩
          · exact .inl ⟨_, .wrongValue kind htag hvalue hrefuses, rfl⟩
        | binary =>
          rcases (decodeLevels_binary_eq_error_iff htag).1 h with
            hop | ⟨op, hop, hleft | ⟨e, hleft, hright⟩⟩
          · exact .inl (defect_of_ofFields (.inl rfl) htag hop)
          · rcases decodePart_eq_error_iff.1 hleft with ⟨hpart, rfl⟩ | ⟨part, e, hpart, he, rfl⟩
            · exact .inl ⟨_, .noLeft htag hop hpart, rfl⟩
            · exact .inr ⟨_, part, e, .left htag hop hpart, he, rfl⟩
          · -- the left part has been decoded before the right one is looked for
            obtain ⟨before, hbefore, hdecoded⟩ := decodePart_eq_ok_iff.1 hleft
            rcases decodePart_eq_error_iff.1 hright with ⟨hpart, rfl⟩ | ⟨part, e, hpart, he, rfl⟩
            · exact .inl ⟨_, .noRight htag hop hbefore hdecoded hpart, rfl⟩
            · exact .inr ⟨_, part, e, .right htag hop hbefore hdecoded hpart, he, rfl⟩
        | unary =>
          rcases (decodeLevels_unary_eq_error_iff htag).1 h with hop | ⟨op, hop, hoperand⟩
          · exact .inl (defect_of_ofFields (.inr rfl) htag hop)
          · rcases decodePart_eq_error_iff.1 hoperand with ⟨hpart, rfl⟩ | ⟨part, e, hpart, he, rfl⟩
            · exact .inl ⟨_, .noOperand htag hop hpart, rfl⟩
            · exact .inr ⟨_, part, e, .operand htag hop hpart, he, rfl⟩
  · have hrefused : decodeLevels (levels + 1) value = fail .notObject := by
      cases value with
      | object fields => exact absurd ⟨fields, rfl⟩ hobject
      | _ => rfl
    rw [hrefused] at h
    cases h
    exact .inl ⟨_, .notObject fun fields hfields => hobject ⟨fields, hfields⟩, rfl⟩

/-- A defective node is not decoded. -/
theorem decodeLevels_of_defect {value : Json} {fault : DecodeFault} (h : Defect levels value fault) :
    decodeLevels levels value = .error (.ofError ⟨fault, []⟩) := by
  have hcomposite {levels : ℕ} {fields : List (Text × Json)} {tag : Text} {failure : Undecoded}
      (hcomposite : tag = "binary" ∨ tag = "unary")
      (htag : Json.fieldOf? "type" fields = some (.string tag))
      (hop : (Json.fieldOf? "op" fields = none ∧ failure = .ofError ⟨.missingField "op", []⟩) ∨
        ∃ op, Json.fieldOf? "op" fields = some op ∧ (∀ text, op ≠ .string text) ∧
          failure = .ofError ⟨.operatorNotText, []⟩) :
      decodeLevels (levels + 1) (.object fields) = .error failure := by
    rcases hcomposite with rfl | rfl
    · exact (decodeLevels_binary_eq_error_iff htag).2 (.inl (Operator.ofFields_eq_error_iff.2 hop))
    · exact (decodeLevels_unary_eq_error_iff htag).2 (.inl (Operator.ofFields_eq_error_iff.2 hop))
  cases h with
  | tooDeep => rfl
  | @notObject _ value hvalue =>
    cases value with
    | object fields => exact absurd rfl (hvalue fields)
    | _ => rfl
  | noTag htag => simp only [decodeLevels, htag, fail]
  | @unknownTag _ _ tagValue htag hunknown =>
    have hkind : Tag.ofJson? tagValue = none := by
      rw [Option.eq_none_iff_forall_ne_some]
      exact fun tag htext => hunknown tag (Tag.ofJson?_eq_some_iff.1 htext)
    simp only [decodeLevels, htag, hkind, fail]
  | noValue kind htag hvalue => exact (decodeLevels_leaf_eq_error_iff kind htag).2 (.inl ⟨hvalue, rfl⟩)
  | wrongValue kind htag hvalue hrefuses =>
    exact (decodeLevels_leaf_eq_error_iff kind htag).2 (.inr ⟨_, hvalue, _, hrefuses, rfl⟩)
  | noOperator hkind htag hop => exact hcomposite hkind htag (.inl ⟨hop, rfl⟩)
  | operatorNotText hkind htag hop htext => exact hcomposite hkind htag (.inr ⟨_, hop, htext, rfl⟩)
  | noLeft htag hop hleft =>
    obtain ⟨op, hop⟩ := exists_ofText BinaryOp hop
    exact (decodeLevels_binary_eq_error_iff htag).2
      (.inr ⟨op, hop, .inl (decodePart_eq_error_iff.2 (.inl ⟨hleft, rfl⟩))⟩)
  | noRight htag hop hleft hdecoded hright =>
    obtain ⟨op, hop⟩ := exists_ofText BinaryOp hop
    exact (decodeLevels_binary_eq_error_iff htag).2
      (.inr ⟨op, hop, .inr ⟨_, decodePart_eq_ok_iff.2 ⟨_, hleft, hdecoded⟩,
        decodePart_eq_error_iff.2 (.inl ⟨hright, rfl⟩)⟩⟩)
  | noOperand htag hop hoperand =>
    obtain ⟨op, hop⟩ := exists_ofText UnaryOp hop
    exact (decodeLevels_unary_eq_error_iff htag).2
      (.inr ⟨op, hop, decodePart_eq_error_iff.2 (.inl ⟨hoperand, rfl⟩)⟩)

/-- A node that leads to a part that is not decoded is not decoded either. -/
theorem decodeLevels_of_stepsTo {value part : Json} {step : PathStep} {e : Undecoded}
    (hstep : StepsTo levels value step part) (he : decodeLevels levels part = .error e) :
    decodeLevels (levels + 1) value = .error (e.under step) := by
  cases hstep with
  | left htag hop hpart =>
    obtain ⟨op, hop⟩ := exists_ofText BinaryOp hop
    exact (decodeLevels_binary_eq_error_iff htag).2
      (.inr ⟨op, hop, .inl (decodePart_eq_error_iff.2 (.inr ⟨part, e, hpart, he, rfl⟩))⟩)
  | right htag hop hbefore hdecoded hpart =>
    obtain ⟨op, hop⟩ := exists_ofText BinaryOp hop
    exact (decodeLevels_binary_eq_error_iff htag).2
      (.inr ⟨op, hop, .inr ⟨_, decodePart_eq_ok_iff.2 ⟨_, hbefore, hdecoded⟩,
        decodePart_eq_error_iff.2 (.inr ⟨part, e, hpart, he, rfl⟩)⟩⟩)
  | operand htag hop hpart =>
    obtain ⟨op, hop⟩ := exists_ofText UnaryOp hop
    exact (decodeLevels_unary_eq_error_iff htag).2
      (.inr ⟨op, hop, decodePart_eq_error_iff.2 (.inr ⟨part, e, hpart, he, rfl⟩)⟩)

/-! ### Decoding all levels -/

/-- Decoding fails as `Undecoded.ofError` of the first defect and the path to it. -/
theorem decodeLevels_eq_error_iff {value : Json} :
    decodeLevels levels value = .error failure
      ↔ ∃ path below node fault, Leads levels value path below node ∧ Defect below node fault ∧
        failure = .ofError ⟨fault, path⟩ := by
  constructor
  · intro h
    induction levels generalizing value failure with
    | zero =>
      cases h
      exact ⟨[], 0, value, .tooDeep, .here, .tooDeep, rfl⟩
    | succ levels ih =>
      rcases defect_or_stepsTo_of_error h with ⟨fault, hdefect, rfl⟩ | ⟨step, part, e, hstep, he, rfl⟩
      · exact ⟨[], levels + 1, value, fault, .here, hdefect, rfl⟩
      · obtain ⟨path, below, node, fault, hpath, hdefect, rfl⟩ := ih he
        exact ⟨step :: path, below, node, fault, .step hstep hpath, hdefect, Undecoded.under_ofError _ _⟩
  · intro h
    obtain ⟨path, below, node, fault, hpath, hdefect, rfl⟩ := h
    -- from the defective node upwards
    induction hpath with
    | here => exact decodeLevels_of_defect hdefect
    | step hstep _ ih =>
      rw [decodeLevels_of_stepsTo hstep (ih hdefect), Undecoded.under_ofError]
      rfl

/-- Decoding fails without an error exactly if the first defect is a tag that cannot be shown. -/
theorem decodeLevels_eq_unshowable_iff {value : Json} :
    decodeLevels levels value = .error .unshowable
      ↔ ∃ path below node tag, Leads levels value path below node ∧ Defect below node (.unknownTag tag) ∧
        tag.isShowable = false := by
  rw [decodeLevels_eq_error_iff]
  constructor
  · intro h
    obtain ⟨path, below, node, fault, hpath, hdefect, hfailure⟩ := h
    obtain ⟨tag, rfl, htag⟩ :=
      DecodeFault.exists_unknownTag (Undecoded.ofError_eq_unshowable_iff.1 hfailure.symm)
    exact ⟨path, below, node, tag, hpath, hdefect, htag⟩
  · intro h
    obtain ⟨path, below, node, tag, hpath, hdefect, htag⟩ := h
    have hfailure : Undecoded.ofError ⟨.unknownTag tag, path⟩ = .unshowable :=
      Undecoded.ofError_eq_unshowable_iff.2 htag
    exact ⟨path, below, node, _, hpath, hdefect, hfailure.symm⟩

theorem Leads.below_add_length {below : ℕ} {value node : Json} {path : List PathStep}
    (h : Leads levels value path below node) : below + path.length = levels := by
  induction h with
  | here => rfl
  | step _ _ ih =>
    rw [List.length_cons]
    omega

/-- A path goes down to parts of nodes and to nothing else. -/
theorem Leads.mem_path {below : ℕ} {value node : Json} {path : List PathStep}
    (h : Leads levels value path below node) :
    ∀ step ∈ path, step = .left ∨ step = .right ∨ step = .operand := by
  induction h with
  | here => exact fun step hstep => absurd hstep List.not_mem_nil
  | step hstep _ ih =>
    refine List.forall_mem_cons.2 ⟨?_, ih⟩
    cases hstep with
    | left => exact .inl rfl
    | right => exact .inr (.inl rfl)
    | operand => exact .inr (.inr rfl)

end Expr

namespace Rule

/-! ### Lists of rules -/

variable {items : List Json} {failure : Undecoded}

theorem exists_undecoded_of_decodeItems {index : ℕ} (h : decodeItems index items = .error failure) :
    ∃ item ∈ items, ∃ e, decode item = .error e := by
  induction items generalizing index failure with
  | nil => cases h
  | cons item items ih =>
    rw [decodeItems, bind_eq_error_iff] at h
    rcases h with hitem | ⟨rule, -, hrest⟩
    · obtain ⟨e, he, -⟩ := Decoded.inside_eq_error_iff.1 hitem
      exact ⟨item, List.mem_cons_self, e, he⟩
    · rcases bind_eq_error_iff.1 hrest with hitems | ⟨rules, -, hrules⟩
      · obtain ⟨later, hlater, he⟩ := ih hitems
        exact ⟨later, List.mem_cons_of_mem _ hlater, he⟩
      · cases hrules

/-- If some item is not decoded, the list fails with the first such item. -/
theorem exists_first_undecoded (h : ∃ item ∈ items, ∃ e, decode item = .error e) :
    ∃ before item after e, items = before ++ item :: after ∧
      (∀ earlier ∈ before, ∃ rule, decode earlier = .ok rule) ∧ decode item = .error e ∧
      decodeItems 0 items = .error (e.under (.item before.length)) := by
  simp only [← not_decoded_iff] at h
  obtain ⟨before, item, after, rfl, hbefore, hitem⟩ := exists_first_not h
  obtain ⟨e, he⟩ := not_decoded_iff.1 hitem
  refine ⟨before, item, after, e, rfl, hbefore, he, ?_⟩
  rw [decodeItems_eq_error hbefore he, Nat.zero_add]

section

variable [JsonLibrary]

/-- **First defect.** An expression is not decoded exactly if a path leads to a defective node while
everything to the left of it is decoded; a node at the end of 64 steps is defective as it is. The error
has this path, unless the node has an unknown tag that cannot be shown: then decoding fails with
`Undecoded.unshowable`, which has none. The text of the path stands behind the place of the expression,
and its steps go down to parts of nodes. A list of rules is not decoded exactly if some item is not, and
then it fails with the first such item, whose index comes first in the path of the error. -/
theorem errors_at_first_defect (value : Json) (items : List Json) :
    (∀ error, Expr.decode value = .error (.defect error) ↔
      (∃ below node, below + error.path.length = 64 ∧ Expr.Leads 64 value error.path below node ∧
        Expr.Defect below node error.fault) ∧ error.fault.isShowable = true) ∧
    (Expr.decode value = .error .unshowable ↔
      ∃ path below node tag, below + path.length = 64 ∧ Expr.Leads 64 value path below node ∧
        Expr.Defect below node (.unknownTag tag) ∧ tag.isShowable = false) ∧
    (∀ error, Expr.decode value = .error (.defect error) →
      (∀ step ∈ error.path, step = .left ∨ step = .right ∨ step = .operand) ∧
      ∀ start, pathTextFrom start error.path = start ++ Text.join (error.path.map PathStep.text)) ∧
    ((∃ failure, (RuleSource.value (.array items)).decode = .error failure) ↔
      ∃ item ∈ items, ∃ e, decode item = .error e) ∧
    ∀ failure, (RuleSource.value (.array items)).decode = .error failure →
      ∃ before item after e, items = before ++ item :: after ∧
        (∀ earlier ∈ before, ∃ rule, decode earlier = .ok rule) ∧ decode item = .error e ∧
        failure = e.under (.item before.length) ∧
        ∀ error, failure = .defect error → ∃ rest, pathText error.path
          = "$" ++ ("[" ++ Text.ofList (Decimal.natText before.length) ++ "]") ++ rest := by
  have hlist : (RuleSource.value (.array items)).decode = decodeItems 0 items := rfl
  rw [hlist]
  refine ⟨fun error => ⟨fun h => ?_, fun h => ?_⟩, ⟨fun h => ?_, fun h => ?_⟩, fun error h => ?_,
    ⟨fun h => ?_, fun h => ?_⟩, fun failure h => ?_⟩
  · obtain ⟨path, below, node, fault, hpath, hdefect, hreported⟩ := Expr.decodeLevels_eq_error_iff.1 h
    obtain ⟨rfl, hshowable⟩ := Undecoded.ofError_eq_defect_iff.1 hreported.symm
    exact ⟨⟨below, node, hpath.below_add_length, hpath, hdefect⟩, hshowable⟩
  · obtain ⟨⟨below, node, -, hpath, hdefect⟩, hshowable⟩ := h
    exact Expr.decodeLevels_eq_error_iff.2 ⟨_, below, node, _, hpath, hdefect,
      (Undecoded.ofError_eq_defect_iff.2 ⟨rfl, hshowable⟩).symm⟩
  · obtain ⟨path, below, node, tag, hpath, hdefect⟩ := Expr.decodeLevels_eq_unshowable_iff.1 h
    exact ⟨path, below, node, tag, hpath.below_add_length, hpath, hdefect⟩
  · obtain ⟨path, below, node, tag, -, hpath, hdefect⟩ := h
    exact Expr.decodeLevels_eq_unshowable_iff.2 ⟨path, below, node, tag, hpath, hdefect⟩
  · obtain ⟨path, below, node, fault, hpath, -, hreported⟩ := Expr.decodeLevels_eq_error_iff.1 h
    obtain ⟨rfl, -⟩ := Undecoded.ofError_eq_defect_iff.1 hreported.symm
    exact ⟨hpath.mem_path, fun start => pathTextFrom_eq_append start path⟩
  · obtain ⟨failure, hfailure⟩ := h
    exact exists_undecoded_of_decodeItems hfailure
  · obtain ⟨before, item, after, e, -, -, -, hfailure⟩ := exists_first_undecoded h
    exact ⟨_, hfailure⟩
  · obtain ⟨before, item, after, e, hitems, hbefore, he, hfailure⟩ :=
      exists_first_undecoded (exists_undecoded_of_decodeItems h)
    rw [h, Except.error.injEq] at hfailure
    refine ⟨before, item, after, e, hitems, hbefore, he, hfailure, fun error herror => ?_⟩
    -- only an error has a path, and that of the item is behind the step to it
    rw [hfailure] at herror
    cases e with
    | unshowable => cases herror
    | defect e =>
      cases herror
      exact exists_pathText_cons (.item before.length) e.path

end

attribute [local instance] JsonLibrary.terse

/-- A truth value for an integer behind a negation, to the right of what is decoded; and a list whose second
item has no expression. -/
theorem errors_at_first_defect_right :
    let tester : Json := .object [("type", .string "ident"), ("value", .string "tester")]
    let count : Json := .object [("type", .string "int"), ("value", .bool true)]
    let value : Json := .object [("type", .string "binary"), ("op", .string "&&"), ("left", tester),
      ("right", .object [("type", .string "unary"), ("op", .string "!"), ("expr", count)])]
    let items : List Json := [.object [("op", .string "&&"), ("expression", tester)],
      .object [("op", .string "||")], .null]
    (∃ below node, below + 2 = 64 ∧ Expr.Leads 64 value [.right, .operand] below node ∧
      Expr.Defect below node (.wrongValue .int)) ∧
    pathTextFrom "$[3].expression" [.right, .operand] = "$[3].expression.right.expr" ∧
    ∃ before item after e, items = before ++ item :: after ∧
      (∀ earlier ∈ before, ∃ rule, decode earlier = .ok rule) ∧ decode item = .error e ∧
      .defect ⟨.missingField "expression", [.item 1]⟩ = e.under (.item before.length) ∧
      ∃ rest, pathText [.item 1]
        = "$" ++ ("[" ++ Text.ofList (Decimal.natText before.length) ++ "]") ++ rest := by
  intro tester count value items
  have hvalue : Expr.decode value = .error (.defect ⟨.wrongValue .int, [.right, .operand]⟩) := rfl
  have hitems : (RuleSource.value (.array items)).decode
      = .error (.defect ⟨.missingField "expression", [.item 1]⟩) := rfl
  obtain ⟨hdefect, -, hpath, -, hlist⟩ := errors_at_first_defect value items
  obtain ⟨before, item, after, e, hsplit, hbefore, he, hfailure, htold⟩ := hlist _ hitems
  refine ⟨((hdefect _).1 hvalue).1, ?_,
    before, item, after, e, hsplit, hbefore, he, hfailure, htold _ rfl⟩
  rw [(hpath _ hvalue).2]
  rfl

/-- A value with a tag that cannot be shown is not decoded, and neither is a list with a rule of it, but
there is no error with a path. -/
theorem no_path_to_long_tag :
    (¬∃ e, Expr.decode Service.longTag = .ok e) ∧
    (¬∃ error, Expr.decode Service.longTag = .error (.defect error)) ∧
    (¬∃ rules, (RuleSource.value (.array [Service.longTagged])).decode = .ok rules) ∧
    ¬∃ error, (RuleSource.value (.array [Service.longTagged])).decode = .error (.defect error) := by
  have hlist : (RuleSource.value (.array [Service.longTagged])).decode = .error .unshowable :=
    @decodeItems_eq_error [] [] _ _ (List.forall_mem_nil _) Service.decode_longTagged 0
  rw [Service.decode_longTag, hlist]
  simp

end Rule

end FeatureToggles
