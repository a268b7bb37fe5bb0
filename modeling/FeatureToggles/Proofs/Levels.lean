import FeatureToggles.DecodeError
import FeatureToggles.Expr.Basic

/-!
# The levels of an expression

The depth that is found node by node is the height of the tree, and a tree is higher than a number
of levels just if one of its nodes stands below them.
-/

namespace FeatureToggles.Expr

/-- The number of levels of an expression: a leaf has one, and a node has one more than its highest
part. -/
def height : Expr → Nat
  | literal _ => 1
  | ident _ => 1
  | binary _ left right => max left.height right.height + 1
  | unary _ operand => operand.height + 1

theorem height_pos (e : Expr) : 0 < e.height := by
  cases e <;> simp [height]

/-- Taking nodes off the agenda finds the lowest end of the trees that stand on it. -/
theorem deepest_eq_foldl (agenda : List (Expr × Nat)) (seen : Nat) :
    deepest agenda seen
      = agenda.foldl (fun seen entry => max seen (entry.2 + entry.1.height - 1)) seen := by
  fun_induction deepest agenda seen with
  | case1 seen => rfl
  | case2 level agenda seen op left right ih =>
    -- a part that stands one level further down ends where the tree ends, or above
    have hl := left.height_pos
    have hr := right.height_pos
    rw [ih, List.foldl_cons, List.foldl_cons, List.foldl_cons, height]
    congr 1
    simp only
    omega
  | case3 level agenda seen op operand ih =>
    have ho := operand.height_pos
    rw [ih, List.foldl_cons, List.foldl_cons, height]
    congr 1
    simp only
    omega
  | case4 level agenda seen value ih => rw [ih, List.foldl_cons, height, Nat.add_sub_cancel]
  | case5 level agenda seen name ih => rw [ih, List.foldl_cons, height, Nat.add_sub_cancel]

theorem depth_eq_height (e : Expr) : e.depth = e.height := by
  rw [depth, deepest_eq_foldl, List.foldl_cons, List.foldl_nil, Nat.zero_max, Nat.add_sub_cancel_left]

/-! ### Nodes in order -/

/-- The paths to all nodes: a node before its parts, and the left part before the right one. A node
stands on the level after the length of its path. -/
def preorder : Expr → List (List PathStep)
  | literal _ => [[]]
  | ident _ => [[]]
  | binary _ left right =>
    [] :: (left.preorder.map (PathStep.left :: ·) ++ right.preorder.map (PathStep.right :: ·))
  | unary _ operand => [] :: operand.preorder.map (PathStep.operand :: ·)

/-- The path to the first node that stands below `levels` levels. -/
def firstBelow (levels : Nat) (e : Expr) : Option (List PathStep) :=
  e.preorder.find? (·.length = levels)

theorem firstBelow_zero (e : Expr) : e.firstBelow 0 = some [] := by
  cases e <;> rfl

theorem find?_map_cons (levels : Nat) (step : PathStep) (paths : List (List PathStep)) :
    (paths.map (step :: ·)).find? (·.length = levels + 1)
      = (paths.find? (·.length = levels)).map (step :: ·) := by
  rw [List.find?_map]
  congr 2
  funext path
  simp

theorem firstBelow_binary (levels : Nat) (op : Operator BinaryOp) (left right : Expr) :
    (binary op left right).firstBelow (levels + 1)
      = ((left.firstBelow levels).map (PathStep.left :: ·)).or
        ((right.firstBelow levels).map (PathStep.right :: ·)) := by
  rw [firstBelow, preorder, List.find?_cons_of_neg (by simp), List.find?_append, find?_map_cons,
    find?_map_cons]
  rfl

theorem firstBelow_unary (levels : Nat) (op : Operator UnaryOp) (operand : Expr) :
    (unary op operand).firstBelow (levels + 1)
      = (operand.firstBelow levels).map (PathStep.operand :: ·) := by
  rw [firstBelow, preorder, List.find?_cons_of_neg (by simp), find?_map_cons]
  rfl

/-- No node stands below as many levels as the tree has, and one stands below any fewer. -/
theorem firstBelow_eq_none_iff {levels : Nat} {e : Expr} :
    e.firstBelow levels = none ↔ e.height ≤ levels := by
  -- going down to a part uses up one level of the limit and of the height
  induction levels generalizing e with
  | zero =>
    have hpos := e.height_pos
    rw [firstBelow_zero]
    constructor
    · intro h
      cases h
    · omega
  | succ levels ih =>
    cases e with
    | literal value => simp [firstBelow, preorder, height]
    | ident name => simp [firstBelow, preorder, height]
    | binary op left right =>
      rw [firstBelow_binary, Option.or_eq_none_iff, Option.map_eq_none_iff, Option.map_eq_none_iff,
        ih, ih, height]
      omega
    | unary op operand =>
      rw [firstBelow_unary, Option.map_eq_none_iff, ih, height]
      omega

end FeatureToggles.Expr
