import FeatureToggles.Rule.Basic

/-!
# Rule lists as a running truth value

The value of a rule list is found rule by rule: one truth value is all that is kept of the rules so
far.
-/

namespace FeatureToggles.Rule

/-- The truth value after one more rule: `op` joins the rule to the truth value `b` of everything
before it, and `v` is the value of the rule's expression. -/
def step (op : Operator BinaryOp) (b : Bool) (v : Literal) : Bool :=
  match op with
  | .known .and => b && v.isTrue
  | .known .or => b || v.isTrue
  | .known .equal => decide (v = .bool b)
  | .known .greaterOrEqual => decide (v = .bool b)
  | .known .notEqual => decide (v ≠ .bool b)
  | .known .greater => false
  | .known .less => true
  | .known .lessOrEqual => true
  | .other .. => false

/-- Whether an operator drops the truth value of everything before it. -/
def forgets : Operator BinaryOp → Bool
  | .known .greater => true
  | .known .less => true
  | .known .lessOrEqual => true
  | .other .. => true
  | _ => false

/-- A truth value equals nothing but itself. -/
theorem bool_eq_eq_decide (b : Bool) (v : Literal) :
    (Literal.bool b).eq v = decide (v = .bool b) := by
  cases v with
  | bool c => cases b <;> cases c <;> rfl
  | string s => simp [Literal.eq]
  | int n => simp [Literal.eq]
  | float x => simp [Literal.eq]

/-- A truth value is never greater than anything. -/
theorem bool_gt (b : Bool) (v : Literal) : (Literal.bool b).gt v = false := by
  cases v <;> rfl

/-- An operator whose left operand is a truth value does what `step` says. -/
theorem applyBinary_bool (op : Operator BinaryOp) (b : Bool) (v : Literal) :
    applyBinary op (.bool b) v = step op b v := by
  cases op with
  | other text unknown => rfl
  | known op =>
    -- every comparison comes down to these two
    have hgt := bool_gt b v
    have heq := bool_eq_eq_decide b v
    cases op <;> simp [applyBinary, BinaryOp.apply, step, hgt, heq, Literal.isTrue]

/-- The running value stays a truth value, and each rule moves it by one `step`. -/
theorem eval_foldl_binary (metadata : Metadata) (rules : List Rule) {running : Expr} {b : Bool}
    (h : running.eval metadata = .bool b) :
    (rules.foldl (fun running rule => .binary rule.op running rule.expr) running).eval metadata
      = .bool (rules.foldl (fun b rule => step rule.op b (rule.expr.eval metadata)) b) := by
  -- the invariant: what runs is some expression whose value is the truth value `b`
  induction rules generalizing running b with
  | nil => exact h
  | cons rule rest ih =>
    rw [List.foldl_cons, List.foldl_cons]
    apply ih
    rw [Expr.eval, h, applyBinary_bool]

theorem evalAll_eq_foldl (metadata : Metadata) (rules : List Rule) :
    evalAll metadata rules
      = rules.foldl (fun b rule => step rule.op b (rule.expr.eval metadata)) true := by
  rw [evalAll, fold, eval_foldl_binary metadata rules (b := true) rfl, Literal.isTrue]

/-- A rule that forgets leaves a truth value that does not depend on the one before. -/
theorem step_of_forgets {op : Operator BinaryOp} (h : forgets op = true) (b c : Bool) (v : Literal) :
    step op b v = step op c v := by
  cases op with
  | other text unknown => rfl
  | known op => cases op <;> simp [step, forgets] at h ⊢

/-- **Streaming.** The empty list is true, and one more rule moves the value of the list by one
`step`, so the value is a fold over one truth value. Everything before a rule that forgets is
irrelevant. -/
theorem evalAll_streams (metadata : Metadata) :
    evalAll metadata [] = true ∧
    (∀ (rules : List Rule) (rule : Rule),
      evalAll metadata (rules ++ [rule])
        = step rule.op (evalAll metadata rules) (rule.expr.eval metadata)) ∧
    (∀ rules : List Rule, evalAll metadata rules
      = rules.foldl (fun b rule => step rule.op b (rule.expr.eval metadata)) true) ∧
    ∀ (before others : List Rule) (rule : Rule) (after : List Rule), forgets rule.op = true →
      evalAll metadata (before ++ rule :: after) = evalAll metadata (others ++ rule :: after) := by
  refine ⟨rfl, fun rules rule => ?_, evalAll_eq_foldl metadata, fun before others rule after h => ?_⟩
  · rw [evalAll_eq_foldl, evalAll_eq_foldl, List.foldl_append, List.foldl_cons, List.foldl_nil]
  · rw [evalAll_eq_foldl, evalAll_eq_foldl, List.foldl_append, List.foldl_append, List.foldl_cons,
      List.foldl_cons, step_of_forgets h]

/-- A false rule before a comparison by `<` does not switch the list off. -/
theorem evalAll_streams_less :
    forgets (.known .less) = true ∧
    evalAll .empty ([⟨.known .and, .literal (.bool false)⟩] ++ [⟨.known .less, .literal (.int 3)⟩])
      = evalAll .empty ([] ++ [⟨.known .less, .literal (.int 3)⟩]) :=
  ⟨rfl, (evalAll_streams .empty).2.2.2 _ _ ⟨.known .less, .literal (.int 3)⟩ [] rfl⟩

end FeatureToggles.Rule
