import FeatureToggles.Expr.Eval
import FeatureToggles.Proofs.FirstOccurrences
import FeatureToggles.Rule.Basic

/-!
# The names of an expression

Walking through an expression adds the names that are new one by one. So every name at a leaf is found,
each once, in the order in which they first stand in the expression from left to right.
-/

namespace FeatureToggles

namespace Expr

/-- The names at the leaves, from left to right. -/
def occurrences : Expr → List Text
  | literal _ => []
  | ident name => [name]
  | binary _ left right => left.occurrences ++ right.occurrences
  | unary _ operand => operand.occurrences

/-- Taking nodes off the agenda finds the names of the trees that stand on it, in order. -/
theorem collectNames_eraseDups (agenda : List Expr) (found : List Text) :
    collectNames agenda found.eraseDups = (found ++ agenda.flatMap occurrences).eraseDups := by
  -- the names so far are the first occurrences of all that the walk has passed
  generalize hnames : found.eraseDups = names
  fun_induction collectNames agenda names generalizing found with
  | case1 names => simp [hnames]
  | case2 agenda names op left right ih =>
    rw [ih found hnames]
    simp [occurrences]
  | case3 agenda names op operand ih =>
    rw [ih found hnames]
    simp [occurrences]
  | case4 agenda names value ih =>
    rw [ih found hnames]
    simp [occurrences]
  | case5 agenda names name ih =>
    simp only [dite_eq_ite, ← hnames] at ih
    rw [← hnames, ih (found ++ [name]) (ite_mem_eraseDups found name).symm]
    simp [occurrences]

theorem names_eq_eraseDups (e : Expr) : e.names = e.occurrences.eraseDups := by
  rw [names]
  simpa using collectNames_eraseDups [e] []

theorem mem_names_iff {e : Expr} {name : Text} : name ∈ e.names ↔ name ∈ e.occurrences := by
  rw [names_eq_eraseDups, List.mem_eraseDups]

end Expr

namespace Rule

/-- The names of a list of rules are those of its rules, one after the other. -/
theorem occurrences_fold (rules : List Rule) :
    (fold rules).occurrences = rules.flatMap (·.expr.occurrences) := by
  induction rules using List.reverseRecOn with
  | nil => rfl
  | append_singleton rules rule ih =>
    rw [fold, List.foldl_append, List.foldl_cons, List.foldl_nil, Expr.occurrences, ← fold, ih,
      List.flatMap_append, List.flatMap_singleton]

end Rule

end FeatureToggles
