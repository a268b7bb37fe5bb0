import FeatureToggles.Literal
import FeatureToggles.Operator

/-!
# Expressions

An expression is a tree of literals and names, joined by operators.
-/

namespace FeatureToggles

/-- An expression. -/
inductive Expr where
  | literal (value : Literal)
  | ident (name : Text)
  | binary (op : Operator BinaryOp) (left right : Expr)
  | unary (op : Operator UnaryOp) (operand : Expr)
  deriving DecidableEq

namespace Expr

/-- The most levels that an expression may have. -/
def maxDepth : Nat := 64

/-- The number of nodes. -/
def size : Expr → Nat
  | binary _ left right => left.size + right.size + 1
  | unary _ operand => operand.size + 1
  | _ => 1

/-- The number of nodes of several expressions. -/
def totalSize : List Expr → Nat
  | [] => 0
  | e :: rest => e.size + totalSize rest

/-- Takes the nodes off an agenda, the last one put on it first, and notes the deepest level among them.
Each entry holds the level that its node stands on. -/
def deepest : List (Expr × Nat) → Nat → Nat
  | [], seen => seen
  | (e, level) :: agenda, seen =>
    match e with
    | binary _ left right =>
      deepest ((right, level + 1) :: (left, level + 1) :: agenda) (max seen level)
    | unary _ operand => deepest ((operand, level + 1) :: agenda) (max seen level)
    | literal _ => deepest agenda (max seen level)
    | ident _ => deepest agenda (max seen level)
termination_by agenda => totalSize (agenda.map (·.1))
decreasing_by all_goals (simp only [List.map_cons, totalSize, size]; omega)

/-- The number of nodes on the longest way from the root to a leaf. -/
def depth (e : Expr) : Nat :=
  deepest [(e, 1)] 0

/-- Takes the nodes off an agenda and adds the names among them that are new. -/
def collectNames : List Expr → List Text → List Text
  | [], names => names
  | e :: agenda, names =>
    match e with
    | binary _ left right => collectNames (left :: right :: agenda) names
    | unary _ operand => collectNames (operand :: agenda) names
    | literal _ => collectNames agenda names
    | ident name => collectNames agenda (if name ∈ names then names else names ++ [name])
termination_by agenda => totalSize agenda
decreasing_by all_goals (simp only [totalSize, size]; omega)

/-- The names that the expression reads, each once, in the order in which they first occur. -/
def names (e : Expr) : List Text :=
  collectNames [e] []

end Expr

end FeatureToggles
