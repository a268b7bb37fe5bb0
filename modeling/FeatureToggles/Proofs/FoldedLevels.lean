import FeatureToggles.Proofs.RuleSources
import FeatureToggles.Proofs.Validation

/-!
# The levels of a folded list

Folding a list of rules puts each rule one level above the rules before it, so the expression of an early
rule ends up far below the root. Decoding limits the levels of every rule by itself and does not look at the
length of the list. So a list that is decoded may fold to an expression that is too deep to be decoded.
-/

namespace FeatureToggles

open Decoded (bind_eq_ok_iff)

namespace Rule

/-- The greatest of these levels: the one on which the start of the list stands, below all rules, and for each
rule the one on which the lowest node of its expression stands. In a list of `n` rules the operator of the
rule with index `i` stands on the level `n - i`, and its expression starts one level further down. -/
def foldLevels (rules : List Rule) : ℕ :=
  (rules.mapIdx fun i rule => rules.length - i + rule.expr.depth).foldl max (rules.length + 1)

/-- What the rules are joined to moves down by one level with each of them. -/
theorem height_foldl_binary (rules : List Rule) (running : Expr) :
    (rules.foldl (fun running rule => .binary rule.op running rule.expr) running).height
      = (rules.mapIdx fun i rule => rules.length - i + rule.expr.height).foldl max
          (running.height + rules.length) := by
  -- what runs grows with each rule, so the induction is over any start
  induction rules generalizing running with
  | nil => rfl
  | cons rule rest ih =>
    have hstart : max running.height rule.expr.height + 1 + rest.length
        = max (running.height + (rest.length + 1)) (rest.length + 1 - 0 + rule.expr.height) := by
      omega
    have hlater : (fun (i : ℕ) (later : Rule) => rest.length + 1 - (i + 1) + later.expr.height)
        = fun i later => rest.length - i + later.expr.height := by
      funext i later
      omega
    rw [List.foldl_cons, ih, Expr.height, hstart, List.length_cons, List.mapIdx_cons, List.foldl_cons,
      hlater]

theorem depth_fold (rules : List Rule) : (fold rules).depth = foldLevels rules := by
  unfold foldLevels
  simp only [Expr.depth_eq_height]
  rw [fold, height_foldl_binary, Expr.height, Nat.add_comm 1]

/-! ### Decoded rules -/

theorem depth_le_of_decode {item : Json} {rule : Rule} (h : decode item = .ok rule) :
    rule.expr.depth ≤ Expr.maxDepth := by
  cases item with
  | object fields =>
    unfold decode at h
    simp only [bind_eq_ok_iff, Expr.decodePart_eq_ok_iff] at h
    obtain ⟨op, -, e, ⟨part, -, he⟩, h⟩ := h
    cases h
    rw [Expr.depth_eq_height]
    exact Expr.height_le_of_decodeLevels he
  | _ => cases h

theorem depth_le_of_decodeItems {index : ℕ} {items : List Json} {rules : List Rule}
    (h : decodeItems index items = .ok rules) : ∀ rule ∈ rules, rule.expr.depth ≤ Expr.maxDepth := by
  have hitems := decodeItems_eq_ok_iff.1 h
  clear h
  induction hitems with
  | nil => exact List.forall_mem_nil _
  | cons hitem _ ih => exact List.forall_mem_cons.2 ⟨depth_le_of_decode hitem, ih⟩

theorem depth_le_of_decodeList {json : Json} {rules : List Rule} (h : decodeList json = .ok rules) :
    ∀ rule ∈ rules, rule.expr.depth ≤ Expr.maxDepth := by
  cases json with
  | null =>
    cases h
    exact List.forall_mem_nil _
  | array items => exact depth_le_of_decodeItems h
  | _ => cases h

section

variable [JsonLibrary]

/-- Decoding limits the levels of each rule, whatever the rules are stored in. -/
theorem depth_le_of_source {source : RuleSource} {rules : List Rule} (h : source.decode = .ok rules) :
    ∀ rule ∈ rules, rule.expr.depth ≤ Expr.maxDepth := by
  have hlist : rules = [] ∨ ∃ json, decodeList json = .ok rules := by
    unfold RuleSource.decode at h
    split at h
    case h_1 =>
      cases h
      exact .inl rfl
    case h_5 => exact .inr ⟨_, h⟩
    -- texts are read to a value first
    all_goals
      obtain ⟨json, -, hjson⟩ := bind_eq_ok_iff.1 h
      exact .inr ⟨json, hjson⟩
  cases hlist with
  | inl hnil =>
    rw [hnil]
    exact List.forall_mem_nil _
  | inr hjson =>
    obtain ⟨json, hjson⟩ := hjson
    exact depth_le_of_decodeList hjson

/-! ### Folded lists as stored expressions -/

/-- **Folded lists.** The expression of a list of rules has as many levels as the lowest of its nodes stands
on. Decoding keeps each rule to 64 levels, but not the list: its expression is read back from its stored form
exactly if all its nodes stand on the first 64 levels, and is refused as too deep otherwise. -/
theorem fold_levels (rules : List Rule) :
    (fold rules).depth = foldLevels rules ∧
    ∀ source : RuleSource, source.decode = .ok rules →
      (∀ rule ∈ rules, rule.expr.depth ≤ 64) ∧
      ((∃ e, Expr.decode (fold rules).encode = .ok e) ↔ foldLevels rules ≤ 64) ∧
      (foldLevels rules ≤ 64 → Expr.decode (fold rules).encode = .ok (fold rules)) ∧
      (64 < foldLevels rules →
        ∃ path, Expr.decode (fold rules).encode = .error (.defect ⟨.tooDeep, path⟩)) := by
  have hdepth := depth_fold rules
  have hread : foldLevels rules ≤ 64 → Expr.decode (fold rules).encode = .ok (fold rules) := by
    intro hle
    apply Expr.decodeLevels_encode
    rw [← Expr.depth_eq_height, hdepth]
    exact hle
  have hrefused : 64 < foldLevels rules →
      ∃ path, Expr.decode (fold rules).encode = .error (.defect ⟨.tooDeep, path⟩) := by
    intro hlt
    have hbelow : (fold rules).firstBelow Expr.maxDepth ≠ none := by
      rw [Ne, Expr.firstBelow_eq_none_iff, ← Expr.depth_eq_height, hdepth]
      exact Nat.not_le.2 hlt
    obtain ⟨path, hpath⟩ := Option.ne_none_iff_exists'.1 hbelow
    exact ⟨path, Expr.decodeLevels_encode_error hpath⟩
  refine ⟨hdepth, fun source hsource => ⟨depth_le_of_source hsource, ⟨?_, ?_⟩, hread, hrefused⟩⟩
  · intro haccepted
    obtain ⟨e, he⟩ := haccepted
    apply Nat.not_lt.1
    intro hlt
    obtain ⟨path, hpath⟩ := hrefused hlt
    rw [hpath] at he
    cases he
  · intro hle
    exact ⟨_, hread hle⟩

end

attribute [local instance] JsonLibrary.terse

/-- Sixty-three rules of one level each fold to an expression that is read back, and with one rule more the
list is still decoded, but its expression is not. -/
theorem fold_levels_sixty_four :
    let rules (n : ℕ) : List Rule := List.replicate n ⟨.known .and, .literal (.bool true)⟩
    (RuleSource.text (encodeAll (rules 63))).decode = .ok (rules 63) ∧
      Expr.decode (fold (rules 63)).encode = .ok (fold (rules 63)) ∧
      (RuleSource.text (encodeAll (rules 64))).decode = .ok (rules 64) ∧
      ∃ path, Expr.decode (fold (rules 64)).encode = .error (.defect ⟨.tooDeep, path⟩) := by
  intro rules
  have hrule : Rule.Storable ⟨.known .and, .literal (.bool true)⟩ := by
    refine ⟨?_, List.forall_mem_nil _⟩
    rw [Expr.depth_eq_height]
    decide
  have hsource (n : ℕ) : (RuleSource.text (encodeAll (rules n))).decode = .ok (rules n) := by
    have hself : (rules n).map joined = rules n := by
      apply map_joined_eq_self
      intro rule hmem
      rw [List.eq_of_mem_replicate hmem]
      exact joined_eq_self ⟨rfl, by decide⟩
    have hread : (RuleSource.text (encodeAll (rules n))).decode = .ok ((rules n).map joined) := by
      apply decode_encodeAll
      intro rule hmem
      rw [List.eq_of_mem_replicate hmem]
      exact hrule
    rwa [hself] at hread
  have hshallow : foldLevels (rules 63) = 64 := by
    rw [← depth_fold, Expr.depth_eq_height]
    decide +kernel
  have hdeep : foldLevels (rules 64) = 65 := by
    rw [← depth_fold, Expr.depth_eq_height]
    decide +kernel
  refine ⟨hsource 63, ((fold_levels _).2 _ (hsource 63)).2.2.1 ?_, hsource 64,
    ((fold_levels _).2 _ (hsource 64)).2.2.2 ?_⟩
  · rw [hshallow]
  · rw [hdeep]
    decide

end Rule

end FeatureToggles
