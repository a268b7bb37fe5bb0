import FeatureToggles.Expr.Eval

/-!
# Rules

A rule is an expression with the operator that joins it to everything before it. A list of rules starts
from true and takes its rules from left to right, without precedence.
-/

namespace FeatureToggles

/-- One rule of a list. -/
structure Rule where
  op : Operator BinaryOp
  expr : Expr
  deriving DecidableEq

namespace Rule

/-- Whether the rule is joined by a logical operator, as authors have to write it. -/
def isLogical (rule : Rule) : Bool :=
  match rule.op with
  | .known op => op.isLogical
  | .other .. => false

theorem isLogical_eq_true_iff {rule : Rule} :
    rule.isLogical = true ↔ rule.op = .known .and ∨ rule.op = .known .or := by
  obtain ⟨op, expr⟩ := rule
  cases op with
  | other text unknown => simp [isLogical]
  | known op => cases op <;> simp [isLogical, BinaryOp.isLogical]

/-- A list of rules as one expression. -/
def fold (rules : List Rule) : Expr :=
  rules.foldl (fun running rule => .binary rule.op running rule.expr) (.literal (.bool true))

/-- The value of a list of rules. -/
def evalAll (metadata : Metadata) (rules : List Rule) : Bool :=
  ((fold rules).eval metadata).isTrue

end Rule

end FeatureToggles
