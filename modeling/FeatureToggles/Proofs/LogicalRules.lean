import FeatureToggles.Fault
import FeatureToggles.Proofs.RuleStep
import Mathlib.Data.List.Forall2
import Mathlib.Data.List.Induction

/-!
# Lists of logical rules

A valid rule is joined by `&&` or `||`. A list of valid rules is true if it is turned on, by a true rule that
is joined by `||` or by its start, and no later rule that is joined by `&&` is false. Rules that stand next
to each other with the same logical operator may be put in any order, and repeated.
-/

namespace FeatureToggles.Rule

/-- Whether the expression of the rule is true. -/
def holds (metadata : Metadata) (rule : Rule) : Bool :=
  (rule.expr.eval metadata).isTrue

/-- The truth value after some more rules. -/
def stepAll (metadata : Metadata) (b : Bool) (rules : List Rule) : Bool :=
  rules.foldl (fun b rule => step rule.op b (rule.expr.eval metadata)) b

variable {metadata metadata' : Metadata} {rules rules' block block' : List Rule} {rule : Rule}
  {op : Operator BinaryOp} {k : Nat}

theorem evalAll_append (metadata : Metadata) (before after : List Rule) :
    evalAll metadata (before ++ after) = stepAll metadata (evalAll metadata before) after := by
  rw [evalAll_eq_foldl, evalAll_eq_foldl, List.foldl_append, stepAll]

theorem evalAll_concat (metadata : Metadata) (rules : List Rule) (rule : Rule) :
    evalAll metadata (rules ++ [rule])
      = step rule.op (evalAll metadata rules) (rule.expr.eval metadata) :=
  evalAll_append metadata rules [rule]

theorem stepAll_cons (b : Bool) (rule : Rule) (rules : List Rule) :
    stepAll metadata b (rule :: rules)
      = stepAll metadata (step rule.op b (rule.expr.eval metadata)) rules :=
  rfl

/-- A rule is valid if it is joined by a logical operator. -/
theorem validate_eq_ok_iff : rule.validate = .ok () ↔ rule.op = .known .and ∨ rule.op = .known .or := by
  rw [← isLogical_eq_true_iff, validate]
  split
  · next h => simp [h]
  · next h => simp [h]

theorem step_and (b : Bool) (rule : Rule) :
    step (.known .and) b (rule.expr.eval metadata) = (b && rule.holds metadata) :=
  rfl

theorem step_or (b : Bool) (rule : Rule) :
    step (.known .or) b (rule.expr.eval metadata) = (b || rule.holds metadata) :=
  rfl

/-! ### Where a list is turned on -/

/-- The list is turned on by its first `k` rules: the last of them is joined by `||` and true, or there are
none of them, and no later rule turns it off. -/
structure OnFrom (metadata : Metadata) (rules : List Rule) (k : Nat) : Prop where
  le_length : k ≤ rules.length
  turnsOn : k = 0 ∨
    ∃ rule, rules[k - 1]? = some rule ∧ rule.op = .known .or ∧ rule.holds metadata = true
  staysOn : ∀ rule ∈ rules.drop k, rule.op = .known .and → rule.holds metadata = true

theorem onFrom_nil : OnFrom metadata [] 0 where
  le_length := Nat.le_refl 0
  turnsOn := .inl rfl
  staysOn _ h := absurd h List.not_mem_nil

/-- One more rule leaves the list on, unless it turns it off. -/
theorem onFrom_concat_iff (hk : k ≤ rules.length) :
    OnFrom metadata (rules ++ [rule]) k
      ↔ OnFrom metadata rules k ∧ (rule.op = .known .and → rule.holds metadata = true) := by
  have hdrop : (rules ++ [rule]).drop k = rules.drop k ++ [rule] := List.drop_append_of_le_length hk
  have hget : k ≠ 0 → (rules ++ [rule])[k - 1]? = rules[k - 1]? := fun hne =>
    List.getElem?_append_left (by omega)
  constructor
  · intro h
    have hstays := h.staysOn
    rw [hdrop, List.forall_mem_append, List.forall_mem_singleton] at hstays
    refine ⟨⟨hk, ?_, hstays.1⟩, hstays.2⟩
    by_cases hne : k = 0
    · exact .inl hne
    · rw [← hget hne]
      exact h.turnsOn
  · rintro ⟨h, hrule⟩
    refine ⟨?_, ?_, ?_⟩
    · rw [List.length_append]
      omega
    · by_cases hne : k = 0
      · exact .inl hne
      · rw [hget hne]
        exact h.turnsOn
    · rw [hdrop, List.forall_mem_append, List.forall_mem_singleton]
      exact ⟨h.staysOn, hrule⟩

/-- The last rule turns the list on by itself if it is joined by `||` and true. -/
theorem onFrom_length_concat_iff :
    OnFrom metadata (rules ++ [rule]) (rules.length + 1)
      ↔ rule.op = .known .or ∧ rule.holds metadata = true := by
  have hget : (rules ++ [rule])[rules.length + 1 - 1]? = some rule := by
    rw [Nat.add_sub_cancel]
    exact List.getElem?_concat_length
  constructor
  · intro h
    obtain hzero | ⟨last, hlast, hop, htrue⟩ := h.turnsOn
    · omega
    · rw [hget, Option.some.injEq] at hlast
      rw [hlast]
      exact ⟨hop, htrue⟩
  · rintro ⟨hop, htrue⟩
    refine ⟨?_, .inr ⟨rule, hget, hop, htrue⟩, ?_⟩
    · simp
    · intro later hlater
      rw [List.drop_of_length_le (by simp)] at hlater
      exact absurd hlater List.not_mem_nil

/-- A list with one more rule is turned on by the rules before, or by this rule itself. -/
theorem exists_onFrom_concat_iff :
    (∃ k, OnFrom metadata (rules ++ [rule]) k)
      ↔ (∃ k, OnFrom metadata rules k) ∧ (rule.op = .known .and → rule.holds metadata = true) ∨
        rule.op = .known .or ∧ rule.holds metadata = true := by
  constructor
  · rintro ⟨k, h⟩
    have hk := h.le_length
    rw [List.length_append, List.length_singleton] at hk
    by_cases hlast : k = rules.length + 1
    · rw [hlast] at h
      exact .inr (onFrom_length_concat_iff.1 h)
    · obtain ⟨hbefore, hrule⟩ := (onFrom_concat_iff (by omega)).1 h
      exact .inl ⟨⟨k, hbefore⟩, hrule⟩
  · rintro (⟨⟨k, h⟩, hrule⟩ | h)
    · exact ⟨k, (onFrom_concat_iff h.le_length).2 ⟨h, hrule⟩⟩
    · exact ⟨rules.length + 1, onFrom_length_concat_iff.2 h⟩

theorem evalAll_eq_true_iff_onFrom (h : ∀ rule ∈ rules, rule.op = .known .and ∨ rule.op = .known .or) :
    evalAll metadata rules = true ↔ ∃ k, OnFrom metadata rules k := by
  -- what turns a list on is looked for from the end, so the induction takes the last rule off
  induction rules using List.reverseRecOn with
  | nil => exact ⟨fun _ => ⟨0, onFrom_nil⟩, fun _ => rfl⟩
  | append_singleton rules rule ih =>
    rw [List.forall_mem_append, List.forall_mem_singleton] at h
    obtain ⟨hrules, hop⟩ := h
    rw [exists_onFrom_concat_iff, ← ih hrules, evalAll_concat]
    rcases hop with hop | hop
    · rw [hop, step_and, Bool.and_eq_true]
      simp
    · rw [hop, step_or, Bool.or_eq_true]
      simp

/-! ### Turning rules on -/

/-- `after` comes from `before` by turning expressions of rules on, and perhaps other metadata. -/
def TurnedOn (metadata metadata' : Metadata) (before after : List Rule) : Prop :=
  List.Forall₂ (fun rule rule' => rule'.op = rule.op ∧
    (rule.holds metadata = true → rule'.holds metadata' = true)) before after

theorem stepAll_mono (h : ∀ rule ∈ rules, rule.op = .known .and ∨ rule.op = .known .or)
    (hon : TurnedOn metadata metadata' rules rules') {b b' : Bool} (hb : b = true → b' = true) :
    stepAll metadata b rules = true → stepAll metadata' b' rules' = true := by
  induction hon generalizing b b' with
  | nil => exact hb
  | @cons rule rule' rules rules' hrule _ ih =>
    obtain ⟨hop, hrules⟩ := List.forall_mem_cons.1 h
    rw [stepAll_cons, stepAll_cons, hrule.1]
    refine ih hrules ?_
    rcases hop with hop | hop
    · rw [hop, step_and, step_and, Bool.and_eq_true, Bool.and_eq_true]
      exact And.imp hb hrule.2
    · rw [hop, step_or, step_or, Bool.or_eq_true, Bool.or_eq_true]
      exact Or.imp hb hrule.2

/-- **Valid rules.** A list of valid rules is true if some first rules turn it on, the last of them by `||`
and a true expression or without any rule at all, and no later rule turns it off by `&&` and a false
expression. So turning expressions on never turns the list off. -/
theorem valid_rules_meaning (h : ∀ rule ∈ rules, rule.validate = .ok ()) (metadata : Metadata) :
    (evalAll metadata rules = true ↔ ∃ k, OnFrom metadata rules k) ∧
    ∀ (metadata' : Metadata) (rules' : List Rule), TurnedOn metadata metadata' rules rules' →
      evalAll metadata rules = true → evalAll metadata' rules' = true := by
  have hop : ∀ rule ∈ rules, rule.op = .known .and ∨ rule.op = .known .or := fun rule hrule =>
    validate_eq_ok_iff.1 (h rule hrule)
  refine ⟨evalAll_eq_true_iff_onFrom hop, fun metadata' rules' hon => ?_⟩
  rw [evalAll_eq_foldl, evalAll_eq_foldl]
  exact stepAll_mono hop hon id

/-- A true rule that is joined by `||` makes up for a false one before it, and the list stays true when the
false rule turns true as well. -/
theorem valid_rules_meaning_rescued :
    let rules : List Rule := [⟨.known .and, .ident "x"⟩, ⟨.known .or, .ident "y"⟩]
    let metadata : Metadata := ⟨[("y", .bool true)]⟩
    let metadata' : Metadata := ⟨[("x", .bool true), ("y", .bool true)]⟩
    (∀ rule ∈ rules, rule.validate = .ok ()) ∧ OnFrom metadata rules 2 ∧
      evalAll metadata rules = true ∧ evalAll metadata' rules = true := by
  intro rules metadata metadata'
  have hvalid : ∀ rule ∈ rules, rule.validate = .ok () :=
    List.forall_mem_cons.2 ⟨rfl, List.forall_mem_singleton.2 rfl⟩
  have hon : OnFrom metadata rules 2 :=
    ⟨Nat.le_refl 2, .inr ⟨_, rfl, rfl, rfl⟩, fun _ h => absurd h List.not_mem_nil⟩
  have hturned : TurnedOn metadata metadata' rules rules :=
    .cons ⟨rfl, fun _ => rfl⟩ (.cons ⟨rfl, fun _ => rfl⟩ .nil)
  obtain ⟨hiff, hmono⟩ := valid_rules_meaning hvalid metadata
  have htrue : evalAll metadata rules = true := hiff.2 ⟨2, hon⟩
  exact ⟨hvalid, hon, htrue, hmono metadata' rules hturned htrue⟩

/-! ### Blocks of one operator -/

theorem stepAll_of_and (h : ∀ rule ∈ block, rule.op = .known .and) (b : Bool) :
    stepAll metadata b block = (b && block.all (holds metadata)) := by
  induction block generalizing b with
  | nil => exact (Bool.and_true b).symm
  | cons rule block ih =>
    obtain ⟨hop, hblock⟩ := List.forall_mem_cons.1 h
    calc stepAll metadata b (rule :: block)
        = stepAll metadata (step rule.op b (rule.expr.eval metadata)) block := stepAll_cons b rule block
      _ = ((b && rule.holds metadata) && block.all (holds metadata)) := by
        rw [hop, step_and, ih hblock]
      _ = (b && (rule :: block).all (holds metadata)) := by
        rw [List.all_cons, Bool.and_assoc]

theorem stepAll_of_or (h : ∀ rule ∈ block, rule.op = .known .or) (b : Bool) :
    stepAll metadata b block = (b || block.any (holds metadata)) := by
  induction block generalizing b with
  | nil => exact (Bool.or_false b).symm
  | cons rule block ih =>
    obtain ⟨hop, hblock⟩ := List.forall_mem_cons.1 h
    calc stepAll metadata b (rule :: block)
        = stepAll metadata (step rule.op b (rule.expr.eval metadata)) block := stepAll_cons b rule block
      _ = ((b || rule.holds metadata) || block.any (holds metadata)) := by
        rw [hop, step_or, ih hblock]
      _ = (b || (rule :: block).any (holds metadata)) := by
        rw [List.any_cons, Bool.or_assoc]

/-- All that counts of rules with one logical operator is which rules they are. -/
theorem stepAll_block_congr (hop : op = .known .and ∨ op = .known .or)
    (hblock : ∀ rule ∈ block, rule.op = op) (hmem : ∀ rule, rule ∈ block' ↔ rule ∈ block) (b : Bool) :
    stepAll metadata b block' = stepAll metadata b block := by
  have hblock' : ∀ rule ∈ block', rule.op = op := fun rule hrule => hblock rule ((hmem rule).1 hrule)
  rcases hop with rfl | rfl
  · rw [stepAll_of_and hblock, stepAll_of_and hblock']
    congr 1
    rw [Bool.eq_iff_iff, List.all_eq_true, List.all_eq_true]
    simp only [hmem]
  · rw [stepAll_of_or hblock, stepAll_of_or hblock']
    congr 1
    rw [Bool.eq_iff_iff, List.any_eq_true, List.any_eq_true]
    simp only [hmem]

theorem evalAll_block_congr (hop : op = .known .and ∨ op = .known .or)
    (hblock : ∀ rule ∈ block, rule.op = op) (hmem : ∀ rule, rule ∈ block' ↔ rule ∈ block)
    (metadata : Metadata) (before after : List Rule) :
    evalAll metadata (before ++ block' ++ after) = evalAll metadata (before ++ block ++ after) := by
  rw [evalAll_append, evalAll_append, evalAll_append _ _ after, evalAll_append _ before,
    stepAll_block_congr hop hblock hmem]

/-- **Reordering.** Rules next to each other that are all joined by `&&`, or all by `||`, may be put in any
order, and each of them may be repeated anywhere among them, whatever rules surround them. -/
theorem evalAll_reordered (hop : op = .known .and ∨ op = .known .or)
    (hblock : ∀ rule ∈ block, rule.op = op) (metadata : Metadata) (before after : List Rule) :
    (∀ block', block.Perm block' →
      evalAll metadata (before ++ block' ++ after) = evalAll metadata (before ++ block ++ after)) ∧
    ∀ (front back : List Rule) (rule : Rule), block = front ++ back → rule ∈ block →
      evalAll metadata (before ++ (front ++ rule :: back) ++ after)
        = evalAll metadata (before ++ block ++ after) := by
  constructor
  · intro block' hperm
    exact evalAll_block_congr hop hblock (fun rule => hperm.mem_iff.symm) metadata before after
  · intro front back rule hsplit hrule
    refine evalAll_block_congr hop hblock (fun other => ?_) metadata before after
    have hmem : other ∈ front ++ rule :: back ↔ other = rule ∨ other ∈ block := by
      rw [List.mem_append, List.mem_cons, hsplit, List.mem_append]
      tauto
    rw [hmem]
    exact ⟨fun h => h.elim (fun heq => heq ▸ hrule) id, .inr⟩

/-- Two rules joined by `||`, behind one whose operator is not known and before a comparison. -/
theorem evalAll_reordered_or :
    let before : List Rule := [⟨.other "xor" rfl, .ident "z"⟩]
    let x : Rule := ⟨.known .or, .ident "x"⟩
    let y : Rule := ⟨.known .or, .ident "y"⟩
    let after : List Rule := [⟨.known .notEqual, .ident "z"⟩]
    (∀ rule ∈ [x, y], rule.op = .known .or) ∧
      (∀ metadata, evalAll metadata (before ++ [y, x] ++ after)
        = evalAll metadata (before ++ [x, y] ++ after)) ∧
      ∀ metadata, evalAll metadata (before ++ [x, y, x] ++ after)
        = evalAll metadata (before ++ [x, y] ++ after) := by
  intro before x y after
  have hblock : ∀ rule ∈ [x, y], rule.op = .known .or :=
    List.forall_mem_cons.2 ⟨rfl, List.forall_mem_singleton.2 rfl⟩
  refine ⟨hblock, fun metadata => ?_, fun metadata => ?_⟩
  · exact (evalAll_reordered (.inr rfl) hblock metadata before after).1 [y, x] (.swap y x [])
  · exact (evalAll_reordered (.inr rfl) hblock metadata before after).2 [x, y] [] x rfl
      List.mem_cons_self

end FeatureToggles.Rule
