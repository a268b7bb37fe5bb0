import FeatureToggles.Proofs.ExprText
import FeatureToggles.Rule.Wire

/-!
# The stored text of rules

A list of rules whose expressions are not too deep and hold short integers is read back from its text. Only
surrogates that make a pair are not kept apart: a text with such a pair is read as one with the character of
the pair.
-/

namespace FeatureToggles

namespace Rule

open Decoded (inside)

/-- Whether a rule can be stored: its expression is not too deep, and its integers are not too long. -/
structure Storable (rule : Rule) : Prop where
  depth_le : rule.expr.depth ≤ Expr.maxDepth
  integers : rule.expr.HasShortIntegers

theorem Storable.height_le {rule : Rule} (h : rule.Storable) : rule.expr.height ≤ Expr.maxDepth := by
  rw [← Expr.depth_eq_height]
  exact h.depth_le

theorem decode_encode {rule : Rule} (h : rule.Storable) : decode rule.encode = .ok rule := by
  have hop : Operator.ofFields [("op", .string rule.op.text), ("expression", rule.expr.encode)]
      = .ok rule.op := Expr.ofFields_op rfl
  have hexpr : Expr.decode rule.expr.encode = .ok rule.expr :=
    Expr.decodeLevels_encode h.height_le
  have hpart : Expr.decodePart .expression "expression"
      [("op", .string rule.op.text), ("expression", rule.expr.encode)] Expr.decode
        = .ok rule.expr := by
    show inside .expression (Expr.decode rule.expr.encode) = _
    rw [hexpr]
    rfl
  rw [encode, decode, hop, hpart]
  rfl

/-- Rules are decoded one by one, wherever they stand in their list. -/
theorem decodeItems_encode {rules : List Rule} (h : ∀ rule ∈ rules, rule.Storable) (index : ℕ) :
    decodeItems index (rules.map encode) = .ok rules := by
  induction rules generalizing index with
  | nil => rfl
  | cons rule rules ih =>
    obtain ⟨hrule, hrules⟩ := List.forall_mem_cons.1 h
    rw [List.map_cons, decodeItems, decode_encode hrule, ih hrules]
    rfl

/-- Whether no text within has a high surrogate directly before a low one. -/
def HasUnpairedTexts (rule : Rule) : Prop :=
  rule.op.text.isUnpaired = true ∧ rule.expr.HasUnpairedTexts

/-- The rule with the pairs of surrogates of all texts within joined. -/
def joined (rule : Rule) : Rule :=
  ⟨rule.op.joined, rule.expr.joined⟩

theorem joined_eq_self {rule : Rule} (h : rule.HasUnpairedTexts) : rule.joined = rule := by
  rw [joined, Operator.joined_eq_self h.1, Expr.joined_eq_self h.2]

theorem map_joined_eq_self {rules : List Rule} (h : ∀ rule ∈ rules, rule.joined = rule) :
    rules.map joined = rules := by
  calc
    rules.map joined = rules.map id := List.map_congr_left h
    _ = rules := List.map_id rules

theorem Storable.joined {rule : Rule} (h : rule.Storable) : rule.joined.Storable where
  depth_le := by
    rw [Expr.depth_eq_height, Rule.joined, Expr.height_joined, ← Expr.depth_eq_height]
    exact h.depth_le
  integers := by
    rw [Rule.joined, Expr.HasShortIntegers, Expr.integers_joined]
    exact h.integers

variable [JsonLibrary]

/-- The list and the rule are two more containers around those of an expression. -/
theorem readsAs_encode {rule : Rule} (h : rule.Storable) :
    Json.ReadsAs (Expr.maxDepth + 1) rule.encode rule.joined.encode :=
  Json.readsAs_object (by simp) (.cons (Expr.fieldReadsAs_op _ rule.op)
    (.cons ⟨Text.joined_ofString _, Expr.readsAs_encode h.integers h.height_le⟩ .nil))

/-- The text of a list of rules holds the JSON list of them, with pairs of surrogates joined. -/
theorem ofText_encodeAll {rules : List Rule} (h : ∀ rule ∈ rules, rule.Storable) :
    StoredJson.ofText (encodeAll rules) = .ok (.array ((rules.map joined).map encode)) := by
  have hitems : List.Forall₂ (Json.ReadsAs (Expr.maxDepth + 1)) (rules.map encode)
      ((rules.map joined).map encode) := by
    rw [List.map_map, List.forall₂_map_left_iff, List.forall₂_map_right_iff]
    exact List.forall₂_same.2 fun rule hrule => readsAs_encode (h rule hrule)
  exact StoredJson.ofText_of_readsAs ((Json.readsAs_array hitems).mono (JsonLibrary.room (by decide)))

/-- The stored text of a list of rules is read as these rules, with pairs of surrogates joined. -/
theorem decode_encodeAll {rules : List Rule} (h : ∀ rule ∈ rules, rule.Storable) :
    (RuleSource.text (encodeAll rules)).decode = .ok (rules.map joined) := by
  rw [RuleSource.decode, ofText_encodeAll h]
  refine decodeItems_encode (fun read hread => ?_) 0
  obtain ⟨rule, hrule, rfl⟩ := List.mem_map.1 hread
  exact (h rule hrule).joined

end Rule

end FeatureToggles
