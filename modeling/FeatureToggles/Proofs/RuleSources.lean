import FeatureToggles.Proofs.StoreHistory
import FeatureToggles.Proofs.StoredRules
import FeatureToggles.Proofs.WrittenBytes
import FeatureToggles.Toggle

/-!
# What rules are stored in

A `RuleSource` is a text, the bytes of a text or a JSON value. All of them hold the same rules, or fail
with the same error.
-/

namespace FeatureToggles

section

variable [JsonLibrary]

/-- The bytes of a text hold what the text holds. -/
theorem StoredJson.ofUtf8_of_utf8? {text : Text} {stored : List UInt8} (h : text.utf8? = some stored) :
    ofUtf8 stored = ofText text := by
  rw [ofUtf8, Text.decodeUtf8_encodeUtf8 false h]
  rfl

namespace RuleSource

theorem decode_bytes_of_utf8? {content : Text} {stored : List UInt8} (h : content.utf8? = some stored) :
    (bytes stored).decode = (text content).decode := by
  rw [decode, decode, StoredJson.ofUtf8_of_utf8? h]

/-- A text holds the rules of its value. -/
theorem decode_text_of_ofText {content : Text} {json : Json}
    (h : StoredJson.ofText content = .ok json) : (text content).decode = Rule.decodeList json := by
  rw [decode, h]
  rfl

/-- A value that is no text is not read once more. -/
theorem decode_value_of_ne_string {json : Json} (h : ∀ content, json ≠ .string content) :
    (value json).decode = Rule.decodeList json := by
  cases json with
  | string content => exact absurd rfl (h content)
  | _ => rfl

end RuleSource

namespace Rule

/-- The JSON list of rules is decoded to these rules. -/
theorem decode_value_encode {rules : List Rule} (h : ∀ rule ∈ rules, rule.Storable) :
    (RuleSource.value (.array (rules.map encode))).decode = .ok rules :=
  decodeItems_encode h 0

/-- **Every form.** Rules whose expressions have at most 64 levels, no integers that are too long and no
texts with pairs of surrogates are read from their text, from the bytes of the text, from the value that
the text holds and from the answer that shows a toggle with these rules. A text and its bytes give the
same rules or the same error, whatever they hold, and so does the value that they hold unless it is itself
a text. -/
theorem stored_rules_every_form :
    (∀ rules : List Rule,
      (∀ rule ∈ rules, rule.expr.depth ≤ 64 ∧ rule.expr.HasShortIntegers ∧ rule.HasUnpairedTexts) →
      (RuleSource.text (encodeAll rules)).decode = .ok rules ∧
      (∃ stored, (encodeAll rules).utf8? = some stored ∧ (RuleSource.bytes stored).decode = .ok rules) ∧
      (∃ json, StoredJson.ofText (encodeAll rules) = .ok json ∧
        (RuleSource.value json).decode = .ok rules) ∧
      ∀ toggle : Toggle, toggle.rules = rules → ∃ json, toggle.toJson.field? "rules" = some json ∧
        (RuleSource.value json).decode = .ok rules) ∧
    (∀ (content : Text) (stored : List UInt8), content.utf8? = some stored →
      (RuleSource.bytes stored).decode = (RuleSource.text content).decode) ∧
    ∀ (content : Text) (json : Json), StoredJson.ofText content = .ok json →
      (∀ inner, json ≠ .string inner) →
      (RuleSource.text content).decode = (RuleSource.value json).decode ∧
      ∀ stored, content.utf8? = some stored →
        (RuleSource.bytes stored).decode = (RuleSource.value json).decode := by
  refine ⟨fun rules hrules => ?_, fun content stored => RuleSource.decode_bytes_of_utf8?,
    fun content json hcontent hjson => ?_⟩
  · have hstorable : ∀ rule ∈ rules, rule.Storable := fun rule hrule =>
      ⟨(hrules rule hrule).1, (hrules rule hrule).2.1⟩
    have hself : rules.map joined = rules := map_joined_eq_self fun rule hrule =>
      joined_eq_self (hrules rule hrule).2.2
    have hholds := ofText_encodeAll hstorable
    have htext := decode_encodeAll hstorable
    rw [hself] at hholds htext
    obtain ⟨stored, hstored⟩ := Json.exists_utf8?_write (.array (rules.map encode))
    have hvalue := decode_value_encode hstorable
    refine ⟨htext, ⟨stored, hstored, ?_⟩, ⟨_, hholds, hvalue⟩, ?_⟩
    · rw [RuleSource.decode_bytes_of_utf8? hstored]
      exact htext
    · rintro toggle rfl
      exact ⟨_, rfl, hvalue⟩
  · have htext := RuleSource.decode_text_of_ofText hcontent
    rw [RuleSource.decode_value_of_ne_string hjson, htext]
    refine ⟨rfl, fun stored hstored => ?_⟩
    rw [RuleSource.decode_bytes_of_utf8? hstored, htext]

end Rule

end

attribute [local instance] JsonLibrary.terse

namespace Rule

/-- A rule with an operator that is not known, a name beyond ASCII and a negative integer, read from its
bytes and from the answer that shows its toggle; and a list with an item that is no rule. -/
theorem stored_rules_every_form_unknown :
    let rule : Rule := ⟨.other "xor" rfl, .binary (.known .greater) (.ident "größe") (.literal (.int (-12)))⟩
    let toggle : Toggle := .bare ⟨1, by decide⟩ ⟨7, by decide⟩ "beta" [rule]
    (∃ stored, (encodeAll [rule]).utf8? = some stored ∧ (RuleSource.bytes stored).decode = .ok [rule]) ∧
      (∃ json, toggle.toJson.field? "rules" = some json ∧ (RuleSource.value json).decode = .ok [rule]) ∧
      ∃ stored, (Json.write (.array [.null])).utf8? = some stored ∧
        (RuleSource.bytes stored).decode = (RuleSource.value (.array [.null])).decode := by
  intro rule toggle
  have hrule : rule.expr.depth ≤ 64 ∧ rule.expr.HasShortIntegers ∧ rule.HasUnpairedTexts := by
    refine ⟨by rw [Expr.depth_eq_height]; decide, fun n hn => ?_, by decide, by decide⟩
    rw [List.mem_singleton.1 (show n ∈ [(-12 : ℤ)] from hn)]
    exact Decimal.length_digits_le (by decide) (lt_of_lt_of_le (b := 10 ^ 2) (by decide)
      (Nat.pow_le_pow_right (by decide) (by decide)))
  obtain ⟨-, hbytes, -, htoggle⟩ :=
    stored_rules_every_form.1 [rule] (List.forall_mem_singleton.2 hrule)
  have hnull : Json.Storable 1 (.array [.null]) := .array (List.forall_mem_singleton.2 (.null 0))
  have htext := StoredJson.ofText_write (hnull.mono (JsonLibrary.room (by decide))) rfl
  obtain ⟨stored, hstored⟩ := Json.exists_utf8?_write (.array [.null])
  exact ⟨hbytes, htoggle toggle rfl, stored, hstored,
    (stored_rules_every_form.2.2 _ _ htext fun _ h => by cases h).2 stored hstored⟩

end Rule

end FeatureToggles
