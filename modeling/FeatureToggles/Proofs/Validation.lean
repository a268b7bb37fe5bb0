import FeatureToggles.Database
import FeatureToggles.Proofs.Names
import FeatureToggles.Proofs.ShownValues
import FeatureToggles.Proofs.StoredForm
import FeatureToggles.Service.Handler

/-!
# Valid rules

The rules in `validateItems` are valid if all of them are decoded and joined by logical operators. The
names in the answer are then those of the rules as one expression, and the stored rules are read back as
they are. Otherwise the answer reports the first rule that is not decoded, or else the first one that is
joined by another operator.
-/

namespace FeatureToggles

open Decoded (bind_eq_ok_iff inside_eq_ok_iff)

namespace Rule

/-! ### Decoding the items of a list -/

/-- A list is decoded if its items are, one by one. -/
theorem decodeItems_eq_ok_iff {index : ℕ} {items : List Json} {rules : List Rule} :
    decodeItems index items = .ok rules
      ↔ List.Forall₂ (fun item rule => decode item = .ok rule) items rules := by
  induction items generalizing index rules with
  | nil =>
    rw [decodeItems, List.forall₂_nil_left_iff, Except.ok.injEq]
    exact eq_comm
  | cons item items ih =>
    simp only [decodeItems, bind_eq_ok_iff, inside_eq_ok_iff, ih, List.forall₂_cons_left_iff]
    constructor
    · rintro ⟨rule, hrule, rest, hrest, h⟩
      cases h
      exact ⟨rule, rest, hrule, hrest, rfl⟩
    · rintro ⟨rule, rest, hrule, hrest, rfl⟩
      exact ⟨rule, hrule, rest, hrest, rfl⟩

/-- A list fails with its first item that is not decoded, and the index of this item in front of the path.
-/
theorem decodeItems_eq_error {before after : List Json} {item : Json} {e : Undecoded}
    (hbefore : ∀ earlier ∈ before, ∃ rule, decode earlier = .ok rule) (hitem : decode item = .error e)
    (index : ℕ) :
    decodeItems index (before ++ item :: after) = .error (e.under (.item (index + before.length))) := by
  induction before generalizing index with
  | nil =>
    rw [List.nil_append, decodeItems, hitem]
    rfl
  | cons earlier before ih =>
    obtain ⟨⟨rule, hrule⟩, hrest⟩ := List.forall_mem_cons.1 hbefore
    rw [List.cons_append, decodeItems, hrule, ih hrest, List.length_cons, Nat.add_right_comm,
      Nat.add_assoc]
    rfl

theorem not_decoded_iff {item : Json} :
    (¬∃ rule, decode item = .ok rule) ↔ ∃ e, decode item = .error e := by
  cases decode item <;> simp

end Rule

/-- Of elements that do not all have a property there is a first one without it. -/
theorem exists_first_not {α : Type} {p : α → Prop} {xs : List α} (h : ∃ x ∈ xs, ¬p x) :
    ∃ before x after, xs = before ++ x :: after ∧ (∀ earlier ∈ before, p earlier) ∧ ¬p x := by
  induction xs with
  | nil =>
    obtain ⟨x, hx, -⟩ := h
    cases hx
  | cons head rest ih =>
    by_cases hhead : p head
    · have hrest : ∃ x ∈ rest, ¬p x := by
        obtain ⟨x, hx, hnot⟩ := h
        rcases List.mem_cons.1 hx with rfl | hx
        · exact absurd hhead hnot
        · exact ⟨x, hx, hnot⟩
      obtain ⟨before, x, after, rfl, hbefore, hnot⟩ := ih hrest
      exact ⟨head :: before, x, after, rfl, List.forall_mem_cons.2 ⟨hhead, hbefore⟩, hnot⟩
    · exact ⟨[], head, rest, rfl, fun _ hmem => absurd hmem List.not_mem_nil, hhead⟩

/-- The text of a path behind `start`. -/
def pathTextFrom (start : Text) (path : List PathStep) : Text :=
  path.foldl (fun text step => text ++ step.text) start

theorem pathTextFrom_eq_append (start : Text) (path : List PathStep) :
    pathTextFrom start path = start ++ Text.join (path.map PathStep.text) := by
  induction path generalizing start with
  | nil => simp [pathTextFrom]
  | cons step path ih =>
    have hstep : pathTextFrom start (step :: path) = pathTextFrom (start ++ step.text) path := rfl
    rw [hstep, ih, List.map_cons, Text.join_cons, Text.append_assoc]

/-- The text of a path starts with the text of its first step. -/
theorem exists_pathText_cons (step : PathStep) (path : List PathStep) :
    ∃ rest, pathText (step :: path) = "$" ++ step.text ++ rest :=
  ⟨_, pathTextFrom_eq_append ("$" ++ step.text) path⟩

theorem ToggleRow.exists_toToggle [JsonLibrary] {row : ToggleRow} {rules : List Rule}
    (h : row.rules.decode = .ok rules) : ∃ toggle, row.toToggle = .ok toggle ∧ toggle.rules = rules := by
  rw [toToggle, h]
  exact ⟨_, rfl, rfl⟩

namespace Service

/-! ### Validating rules one by one -/

/-- The names after one more rule. -/
def addValid (names : List Text) (rule : Rule) : Except Fault (List Text) := do
  rule.validate
  return rule.expr.names.foldl (fun names name => if name ∈ names then names else names ++ [name]) names

theorem validNames_eq_foldlM (rules : List Rule) : validNames rules = rules.foldlM addValid [] :=
  rfl

/-- The names of a valid rule come behind those of the rules before it. -/
theorem addValid_of_isLogical {rule : Rule} (h : rule.isLogical = true) (found : List Text) :
    addValid found.eraseDups rule = .ok (found ++ rule.expr.occurrences).eraseDups := by
  rw [addValid, Rule.validate, if_pos h, foldl_ite_mem, Expr.names_eq_eraseDups,
    eraseDups_append_eraseDups]
  rfl

theorem addValid_of_not_isLogical {rule : Rule} (h : rule.isLogical ≠ true) (names : List Text) :
    addValid names rule = .error (.badOperator rule.op.text) := by
  rw [addValid, Rule.validate, if_neg h]
  rfl

theorem foldlM_addValid {rules : List Rule} (h : ∀ rule ∈ rules, rule.isLogical = true)
    (found : List Text) :
    rules.foldlM addValid found.eraseDups
      = .ok (found ++ rules.flatMap (·.expr.occurrences)).eraseDups := by
  -- the names so far are the first occurrences in the rules so far
  induction rules generalizing found with
  | nil => simp [pure, Except.pure]
  | cons rule rules ih =>
    obtain ⟨hrule, hrules⟩ := List.forall_mem_cons.1 h
    rw [List.foldlM_cons, addValid_of_isLogical hrule]
    rw [List.flatMap_cons, ← List.append_assoc]
    exact ih hrules (found ++ rule.expr.occurrences)

/-- Rules that are joined by logical operators have the names of the rules as one expression. -/
theorem validNames_of_isLogical {rules : List Rule} (h : ∀ rule ∈ rules, rule.isLogical = true) :
    validNames rules = .ok (Rule.fold rules).names := by
  rw [validNames_eq_foldlM, Expr.names_eq_eraseDups, Rule.occurrences_fold]
  exact foldlM_addValid h []

/-- The first rule that is joined by another operator is refused. -/
theorem validNames_of_not_isLogical {before after : List Rule} {rule : Rule}
    (hbefore : ∀ earlier ∈ before, earlier.isLogical = true) (hrule : rule.isLogical ≠ true) :
    validNames (before ++ rule :: after) = .error (.badOperator rule.op.text) := by
  rw [validNames_eq_foldlM, List.foldlM_append, ← List.eraseDups_nil, foldlM_addValid hbefore]
  show List.foldlM addValid _ (rule :: after) = _
  rw [List.foldlM_cons, addValid_of_not_isLogical hrule]
  rfl

/-! ### Validating stored rules -/

theorem validateItems_of_undecoded {items : List Json} {e : Undecoded}
    (h : Rule.decodeItems 0 items = .error e) :
    validateItems items = .ofFailure (.ofUndecoded e) := by
  rw [validateItems, h]

theorem validateItems_of_decoded {items : List Json} {rules : List Rule}
    (h : Rule.decodeItems 0 items = .ok rules) (hlogical : ∀ rule ∈ rules, rule.isLogical = true) :
    validateItems items = .ok (.object [("valid", .bool true),
      ("identifiers", .array ((Rule.fold rules).names.map .string))]) := by
  rw [validateItems, h]
  simp only [validNames_of_isLogical hlogical]

theorem validateItems_of_not_isLogical {items : List Json} {before after : List Rule} {rule : Rule}
    (h : Rule.decodeItems 0 items = .ok (before ++ rule :: after))
    (hbefore : ∀ earlier ∈ before, earlier.isLogical = true) (hrule : rule.isLogical ≠ true) :
    validateItems items = .fault (.badOperator rule.op.text) := by
  rw [validateItems, h]
  simp only [validNames_of_not_isLogical hbefore hrule]

section

variable [JsonLibrary]

/-- **Validation.** Stored rules are valid exactly if they are decoded and joined by logical operators.
Then the names in the answer are those of the rules as one expression; and every text that holds the rules
is decoded to the same ones, also from the row of a toggle. The text that is written for them holds them
if their integers are not too long, no name occurs twice in an object, containers are not nested too
deeply and no text has a pair of surrogates. If some item is not decoded, the answer is
`Fault.undecodable` with the path of the first such item, whatever joins the rules before it, or a crash
if decoding this item fails with `Undecoded.unshowable`. If all items are decoded, it is
`Fault.badOperator` for the first rule that is not joined by a logical operator. -/
theorem validation_agrees_with_storage (items : List Json) :
    ((∃ body, validateItems items = .ok body) ↔
      ∃ rules, (RuleSource.value (.array items)).decode = .ok rules ∧
        ∀ rule ∈ rules, rule.op = .known .and ∨ rule.op = .known .or) ∧
    (∀ rules, (RuleSource.value (.array items)).decode = .ok rules →
      (∀ rule ∈ rules, rule.op = .known .and ∨ rule.op = .known .or) →
      validateItems items = .ok (.object [("valid", .bool true),
        ("identifiers", .array ((Rule.fold rules).names.map .string))]) ∧
      ∀ text, StoredJson.ofText text = .ok (.array items) →
        (RuleSource.text text).decode = .ok rules ∧
        ∀ row : ToggleRow, row.rules = .text text →
          ∃ toggle, row.toToggle = .ok toggle ∧ toggle.rules = rules) ∧
    (Json.Storable JsonLibrary.maxNesting (.array items) → (Json.array items).hasUnpairedTexts = true →
      StoredJson.ofText (Json.write (.array items)) = .ok (.array items)) ∧
    ((∃ item ∈ items, ∃ e, Rule.decode item = .error e) →
      ∃ before item after e, items = before ++ item :: after ∧
        (∀ earlier ∈ before, ∃ rule, Rule.decode earlier = .ok rule) ∧ Rule.decode item = .error e ∧
        (∀ error, e = .defect error →
          validateItems items = .fault (.undecodable (error.under (.item before.length))) ∧
          (Fault.undecodable (error.under (.item before.length))).code = "DECODE_ERROR" ∧
          ∃ rest, (Fault.undecodable (error.under (.item before.length))).details = ([("path",
            .string ("$" ++ ("[" ++ Text.ofList (Decimal.natText before.length) ++ "]") ++ rest))] : Details)) ∧
        (e = .unshowable → validateItems items = .crash)) ∧
    ∀ rules, (RuleSource.value (.array items)).decode = .ok rules →
      (∃ rule ∈ rules, ¬(rule.op = .known .and ∨ rule.op = .known .or)) →
      ∃ before rule after, rules = before ++ rule :: after ∧
        (∀ earlier ∈ before, earlier.op = .known .and ∨ earlier.op = .known .or) ∧
        ¬(rule.op = .known .and ∨ rule.op = .known .or) ∧
        validateItems items = .fault (.badOperator rule.op.text) ∧
        (Fault.badOperator rule.op.text).code = "VALIDATION_ERROR" ∧
        (Fault.badOperator rule.op.text).details = ([("op", .string rule.op.text)] : Details) := by
  simp only [← Rule.isLogical_eq_true_iff]
  have hdecode : (RuleSource.value (.array items)).decode = Rule.decodeItems 0 items := rfl
  rw [hdecode]
  refine ⟨⟨?_, ?_⟩, fun rules h hlogical => ⟨validateItems_of_decoded h hlogical, ?_⟩,
    StoredJson.ofText_write, ?_, ?_⟩
  · rintro ⟨body, hbody⟩
    cases h : Rule.decodeItems 0 items with
    | error e =>
      rw [validateItems_of_undecoded h] at hbody
      cases e <;> cases hbody
    | ok rules =>
      refine ⟨rules, rfl, ?_⟩
      by_contra hnot
      push Not at hnot
      -- some rule is joined otherwise, so the first of them is reported
      obtain ⟨before, rule, after, rfl, hbefore, hrule⟩ := exists_first_not hnot
      rw [validateItems_of_not_isLogical h hbefore hrule] at hbody
      cases hbody
  · rintro ⟨rules, h, hlogical⟩
    exact ⟨_, validateItems_of_decoded h hlogical⟩
  · intro text htext
    have hread : (RuleSource.text text).decode = .ok rules := by
      rw [RuleSource.decode, htext]
      exact h
    exact ⟨hread, fun row hrow => ToggleRow.exists_toToggle (hrow ▸ hread)⟩
  · intro h
    simp only [← Rule.not_decoded_iff] at h
    obtain ⟨before, item, after, rfl, hbefore, hitem⟩ := exists_first_not h
    obtain ⟨e, he⟩ := Rule.not_decoded_iff.1 hitem
    have herror : Rule.decodeItems 0 (before ++ item :: after)
        = .error (e.under (.item before.length)) := by
      rw [Rule.decodeItems_eq_error hbefore he, Nat.zero_add]
    refine ⟨before, item, after, e, rfl, hbefore, he, ?_, ?_⟩
    · rintro error rfl
      obtain ⟨rest, hrest⟩ := exists_pathText_cons (.item before.length) error.path
      refine ⟨validateItems_of_undecoded herror, rfl, rest, ?_⟩
      rw [← PathStep.text, ← hrest]
      rfl
    · rintro rfl
      exact validateItems_of_undecoded herror
  · intro rules h hnot
    obtain ⟨before, rule, after, rfl, hbefore, hrule⟩ := exists_first_not hnot
    exact ⟨before, rule, after, rfl, hbefore, hrule, validateItems_of_not_isLogical h hbefore hrule,
      rfl, rfl⟩

end

attribute [local instance] JsonLibrary.terse

/-- Two rules that read the same name, the second one with its fields in another order and a field that is
no part of it. -/
theorem validation_agrees_with_storage_note :
    let tester : Json := .object [("type", .string "ident"), ("value", .string "tester")]
    let items : List Json := [.object [("op", .string "&&"), ("expression", tester)],
      .object [("note", .null), ("expression", tester), ("op", .string "||")]]
    let rules : List Rule := [⟨.known .and, .ident "tester"⟩, ⟨.known .or, .ident "tester"⟩]
    validateItems items
        = .ok (.object [("valid", .bool true), ("identifiers", .array [.string "tester"])]) ∧
      (RuleSource.text (Json.write (.array items))).decode = .ok rules := by
  intro tester items rules
  have hdecode : (RuleSource.value (.array items)).decode = .ok rules := rfl
  have hlogical : ∀ rule ∈ rules, rule.op = .known .and ∨ rule.op = .known .or := by
    decide
  have htester : Json.Storable 1 tester := .object (by decide) (by simp [Json.Storable.string])
  have hitems : Json.Storable 3 (.array items) := by
    refine .array (List.forall_mem_cons.2 ⟨?_, List.forall_mem_singleton.2 ?_⟩)
    · exact .object (by decide) (by simp [Json.Storable.string, htester])
    · exact .object (by decide) (by simp [Json.Storable.string, Json.Storable.null, htester])
  have hnames : (Rule.fold rules).names = ["tester"] := by
    rw [Expr.names_eq_eraseDups]
    decide
  obtain ⟨-, hrules, hwritten, -⟩ := validation_agrees_with_storage items
  obtain ⟨hvalid, hread⟩ := hrules rules hdecode hlogical
  rw [hnames] at hvalid
  exact ⟨hvalid, (hread _ (hwritten (hitems.mono (JsonLibrary.room (by decide))) rfl)).1⟩

/-- An expression with a tag that cannot be shown. -/
def longTag : Json := .object [("type", Json.longInteger)]

theorem decode_longTag : Expr.decode longTag = .error .unshowable :=
  congrArg Except.error (Undecoded.ofError_eq_unshowable_iff.2 Json.isShowable_longInteger)

/-- A rule of such an expression. -/
def longTagged : Json := .object [("op", .string "&&"), ("expression", longTag)]

theorem decode_longTagged : Rule.decode longTagged = .error .unshowable := by
  have hrule : Rule.decode longTagged = (do
      let expr ← Decoded.inside .expression (Expr.decode longTag)
      return ⟨.known .and, expr⟩) := rfl
  rw [hrule, decode_longTag]
  rfl

/-- The second rule of a list has a tag that cannot be shown: it is not decoded, and `validateItems` ends
with a crash. -/
theorem validation_of_long_tag :
    let bad : Json := .object [("op", .string "=="), ("expression", .object
      [("type", .string "bool"), ("value", .bool true)])]
    (∃ item ∈ [bad, longTagged], ∃ e, Rule.decode item = .error e) ∧
      ¬∃ error : DecodeError, validateItems [bad, longTagged] = .fault (.undecodable error) := by
  intro bad
  have hbad : ∀ earlier ∈ [bad], ∃ rule, Rule.decode earlier = .ok rule :=
    List.forall_mem_singleton.2 ⟨_, rfl⟩
  have hlist : Rule.decodeItems 0 [bad, longTagged] = .error .unshowable :=
    @Rule.decodeItems_eq_error [bad] [] longTagged _ hbad decode_longTagged 0
  refine ⟨⟨longTagged, by simp, _, decode_longTagged⟩, ?_⟩
  rw [validateItems_of_undecoded hlist]
  rintro ⟨error, h⟩
  cases h

end Service

end FeatureToggles
