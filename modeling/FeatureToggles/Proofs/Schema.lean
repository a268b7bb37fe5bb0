import FeatureToggles.Proofs.ShownErrors

/-!
# The schema of stored expressions

The function `decode` accepts the values of the schema `Json.IsNode` and nothing else, and `encode` gives
back all of them that the schema knows. Every other value fails with an error if it can be shown.
-/

namespace FeatureToggles.Expr

/-- **Schema.** The values that are decoded are those of the schema, which have 64 levels at most, and
storing the expression gives back all of the value that its nodes consist of. Any other value fails with
an error if it can be shown. Decoding fails with `Undecoded.unshowable` exactly if the first defect is an
unknown tag that cannot be shown. -/
theorem decode_schema (value : Json) :
    ((∃ e, decode value = .ok e) ↔ Json.IsNode 1 value) ∧
    (∀ e, decode value = .ok e → e.depth ≤ 64 ∧ Json.Same e.encode value.pruned) ∧
    (¬Json.IsNode 1 value → value.isShowable = true → ∃ error, decode value = .error (.defect error)) ∧
    (decode value = .error .unshowable ↔ ∃ path below node tag, Leads 64 value path below node ∧
      Defect below node (.unknownTag tag) ∧ tag.isShowable = false) := by
  have hschema : (∃ e, decode value = .ok e) ↔ Json.IsNode 1 value :=
    exists_decodeLevels_iff (by decide) value
  refine ⟨hschema, fun e h => ?_, fun hvalue hshowable => ?_, decodeLevels_eq_unshowable_iff⟩
  · have hheight : e.height ≤ maxDepth := height_le_of_decodeLevels h
    rw [depth_eq_height]
    exact ⟨hheight, same_encode_pruned h⟩
  · cases h : decode value with
    | ok e => exact absurd (hschema.1 ⟨e, h⟩) hvalue
    | error failure =>
      obtain ⟨error, rfl⟩ := exists_defect hshowable h
      exact ⟨error, rfl⟩

/-- A comparison with an operator that is not known, its fields in another order, a field that is no part
of the node, and an integer for a binary64 number. -/
def annotated : Json :=
  .object [("note", .null), ("right", .object [("value", .int 3), ("type", .string "float")]),
    ("op", .string "<=>"), ("left", .object [("type", .string "ident"), ("value", .string "load")]),
    ("type", .string "binary")]

theorem decode_schema_annotated :
    decode annotated = .ok (binary (.ofText "<=>") (ident "load") (literal (.float (.ofNat 3)))) ∧
      Json.Same (binary (.ofText "<=>") (ident "load") (literal (.float (.ofNat 3)))).encode
        annotated.pruned ∧
      ∃ error, decode (.object [("type", .array [])]) = .error (.defect error) := by
  have hthree : Binary64.ofInt? 3 = some (.ofNat 3) := by decide +kernel
  have hright : HeldBy (decodeLevels 62) [("value", .int 3), ("type", .string "float")]
      (literal (.float (.ofNat 3))) :=
    .leaf .float rfl rfl (decodeLeaf_integer_eq_ok_iff.2 ⟨_, hthree, rfl⟩)
  have hdecode : decode annotated
      = .ok (binary (.ofText "<=>") (ident "load") (literal (.float (.ofNat 3)))) :=
    decodeLevels_succ_eq_ok_iff.2 ⟨_, rfl, .binary rfl rfl rfl rfl rfl
      (decodeLevels_succ_eq_ok_iff.2 ⟨_, rfl, hright⟩)⟩
  have hlist : ¬ Json.IsNode 1 (.object [("type", .array [])]) := by
    intro h
    cases h <;> simp_all [Json.fieldOf?]
  exact ⟨hdecode, ((decode_schema annotated).2.1 _ hdecode).2, (decode_schema _).2.2.1 hlist rfl⟩

/-- A tag that cannot be shown is not of the schema, but `decode` fails without an error. -/
theorem long_tag_without_error :
    ¬Json.IsNode 1 Service.longTag ∧
      ¬∃ error, decode Service.longTag = .error (.defect error) := by
  have hschema : (∃ e, decode Service.longTag = .ok e) ↔ Json.IsNode 1 Service.longTag :=
    exists_decodeLevels_iff (by decide) Service.longTag
  rw [← hschema, Service.decode_longTag]
  simp

end FeatureToggles.Expr
