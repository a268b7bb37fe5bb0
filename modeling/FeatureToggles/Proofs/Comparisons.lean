import FeatureToggles.Expr.Eval
import FeatureToggles.Expr.Wire
import FeatureToggles.Proofs.LiteralOrder

/-!
# Comparisons between expressions

All six comparisons come down to two, by equality and by size. Less is the contrary of greater, and so is at
most, as nothing is equal and greater at once. Across kinds nothing is equal or greater, so there the
contraries hold. On one line exactly one of greater, equal and the reverse of greater holds.
-/

namespace FeatureToggles

/-- Whether one of three statements is true and the others are not. -/
def ExactlyOne (p q r : Prop) : Prop :=
  (p ∨ q ∨ r) ∧ ¬(p ∧ q) ∧ ¬(q ∧ r) ∧ ¬(p ∧ r)

namespace Literal

variable {x y : Literal}

/-- Values of different kinds are neither equal nor is one of them greater. -/
theorem eq_and_gt_of_kind_ne (h : x.kind ≠ y.kind) : x.eq y = false ∧ x.gt y = false := by
  cases x with
  | string s => cases y with
    | string t => exact absurd rfl h
    | _ => exact ⟨rfl, rfl⟩
  | int m => cases y with
    | int n => exact absurd rfl h
    | _ => exact ⟨rfl, rfl⟩
  | float u => cases y with
    | float v => exact absurd rfl h
    | _ => exact ⟨rfl, rfl⟩
  | bool b => cases y with
    | bool c => exact absurd rfl h
    | _ => exact ⟨rfl, rfl⟩

/-- Whether two values stand on one line: two texts, two integers, or two numbers in binary64. -/
inductive SameLine : Literal → Literal → Prop
  | texts (s t : Text) : SameLine (.string s) (.string t)
  | ints (m n : ℤ) : SameLine (.int m) (.int n)
  | floats {x y : Binary64} (hx : x ≠ .nan) (hy : y ≠ .nan) : SameLine (.float x) (.float y)

theorem exists_place_float {x : Binary64} (h : x ≠ .nan) : ∃ n, (float x).place = .float n := by
  cases x with
  | nan => exact absurd rfl h
  | number negative rank => exact ⟨_, rfl⟩

theorem trichotomy_of_place {α : Type} [LinearOrder α] (line : α → Place)
    (hline : ∀ u v, u < v → (line u).Below (line v)) (hsome : ∀ u, line u ≠ .nowhere) {u v : α}
    (hx : x.place = line u) (hy : y.place = line v) :
    x.gt y = true ∨ x.eq y = true ∨ y.gt x = true := by
  rw [gt_iff, gt_iff, eq_iff, hx, hy]
  rcases lt_trichotomy v u with hlt | rfl | hlt
  · exact .inl (hline v u hlt)
  · exact .inr (.inl ⟨rfl, hsome v⟩)
  · exact .inr (.inr (hline u v hlt))

/-- On a line any two values can be compared. -/
theorem SameLine.trichotomy (h : x.SameLine y) :
    x.gt y = true ∨ x.eq y = true ∨ y.gt x = true := by
  cases h with
  | texts s t =>
    exact trichotomy_of_place .text (fun _ _ h => h) (fun _ => Place.noConfusion) rfl rfl
  | ints m n =>
    exact trichotomy_of_place .int (fun _ _ h => h) (fun _ => Place.noConfusion) rfl rfl
  | floats hu hv =>
    obtain ⟨m, hm⟩ := exists_place_float hu
    obtain ⟨n, hn⟩ := exists_place_float hv
    exact trichotomy_of_place .float (fun _ _ h => h) (fun _ => Place.noConfusion) hm hn

end Literal

namespace Expr

variable {metadata : Metadata} {op : BinaryOp} {a b : Expr}

/-- Whether an operator between two expressions gives true. -/
def Holds (metadata : Metadata) (op : BinaryOp) (a b : Expr) : Prop :=
  (binary (.known op) a b).eval metadata = .bool true

theorem eval_binary_known (metadata : Metadata) (op : BinaryOp) (a b : Expr) :
    (binary (.known op) a b).eval metadata = .bool (op.apply (a.eval metadata) (b.eval metadata)) :=
  rfl

theorem holds_iff : Holds metadata op a b ↔ op.apply (a.eval metadata) (b.eval metadata) = true := by
  rw [Holds, eval_binary_known, Literal.bool.injEq]

/-- What does not hold gives false. -/
theorem not_holds_iff :
    ¬Holds metadata op a b ↔ (binary (.known op) a b).eval metadata = .bool false := by
  rw [holds_iff, eval_binary_known, Literal.bool.injEq, Bool.not_eq_true]

theorem holds_equal_iff : Holds metadata .equal a b ↔ (a.eval metadata).eq (b.eval metadata) = true :=
  holds_iff

theorem holds_greater_iff :
    Holds metadata .greater a b ↔ (a.eval metadata).gt (b.eval metadata) = true :=
  holds_iff

theorem holds_notEqual_iff : Holds metadata .notEqual a b ↔ ¬Holds metadata .equal a b := by
  rw [holds_equal_iff, holds_iff, BinaryOp.apply, Bool.not_eq_true, Bool.not_eq_true']

theorem holds_less_iff : Holds metadata .less a b ↔ ¬Holds metadata .greater a b := by
  rw [holds_greater_iff, holds_iff, BinaryOp.apply, Bool.not_eq_true, Bool.not_eq_true']

theorem holds_greaterOrEqual_iff :
    Holds metadata .greaterOrEqual a b ↔ Holds metadata .greater a b ∨ Holds metadata .equal a b := by
  rw [holds_greater_iff, holds_equal_iff, holds_iff, BinaryOp.apply, Bool.or_eq_true]

theorem not_holds_greater_and_equal : ¬(Holds metadata .greater a b ∧ Holds metadata .equal a b) := by
  rw [holds_greater_iff, holds_equal_iff]
  rintro ⟨hgt, heq⟩
  rw [Literal.gt_eq_false_of_eq heq] at hgt
  cases hgt

/-- What is equal is not greater, so it adds nothing to what is less. -/
theorem holds_lessOrEqual_iff : Holds metadata .lessOrEqual a b ↔ Holds metadata .less a b := by
  have hor : Holds metadata .lessOrEqual a b ↔ Holds metadata .equal a b ∨ ¬Holds metadata .greater a b := by
    rw [holds_greater_iff, holds_equal_iff, holds_iff, BinaryOp.apply, Bool.or_eq_true, Bool.not_eq_true,
      Bool.not_eq_true']
  rw [hor, holds_less_iff]
  exact or_iff_right_of_imp fun heq hgt => not_holds_greater_and_equal ⟨hgt, heq⟩

theorem holds_equal_comm : Holds metadata .equal a b ↔ Holds metadata .equal b a := by
  rw [holds_equal_iff, holds_equal_iff, Literal.eq_comm]

theorem not_holds_greater_both : ¬(Holds metadata .greater a b ∧ Holds metadata .greater b a) := by
  rw [holds_greater_iff, holds_greater_iff]
  rintro ⟨hab, hba⟩
  rw [Literal.gt_asymm hab] at hba
  cases hba

/-- Across kinds neither of the two comparisons holds that the others come down to. -/
theorem not_holds_of_kind_ne (h : (a.eval metadata).kind ≠ (b.eval metadata).kind) :
    ¬Holds metadata .equal a b ∧ ¬Holds metadata .greater a b := by
  obtain ⟨heq, hgt⟩ := Literal.eq_and_gt_of_kind_ne h
  rw [holds_equal_iff, holds_greater_iff, heq, hgt]
  exact ⟨Bool.false_ne_true, Bool.false_ne_true⟩

theorem exactlyOne_of_sameLine (h : (a.eval metadata).SameLine (b.eval metadata)) :
    ExactlyOne (Holds metadata .greater a b) (Holds metadata .equal a b)
      (Holds metadata .greater b a) := by
  refine ⟨?_, not_holds_greater_and_equal, fun ⟨heq, hgt⟩ => ?_, not_holds_greater_both⟩
  · rw [holds_greater_iff, holds_equal_iff, holds_greater_iff]
    exact h.trichotomy
  · exact not_holds_greater_and_equal ⟨hgt, holds_equal_comm.1 heq⟩

/-- **Comparisons.** Every comparison gives a truth value. Unequal is the contrary of equal, and less the
contrary of greater; at most is the same as less, and at least is greater or equal. Nothing is greater and
equal at once, being equal goes both ways, and being greater never does. Values of different kinds are
neither equal nor greater, and so they are unequal and less; of two values on one line exactly one of
greater, equal and the reverse of greater holds. -/
theorem comparison_laws (metadata : Metadata) (a b : Expr) :
    (∀ op, ¬Holds metadata op a b ↔ (binary (.known op) a b).eval metadata = .bool false) ∧
    (Holds metadata .notEqual a b ↔ ¬Holds metadata .equal a b) ∧
    (Holds metadata .less a b ↔ ¬Holds metadata .greater a b) ∧
    (Holds metadata .lessOrEqual a b ↔ Holds metadata .less a b) ∧
    (Holds metadata .greaterOrEqual a b ↔ Holds metadata .greater a b ∨ Holds metadata .equal a b) ∧
    ¬(Holds metadata .greater a b ∧ Holds metadata .equal a b) ∧
    (Holds metadata .equal a b ↔ Holds metadata .equal b a) ∧
    ¬(Holds metadata .greater a b ∧ Holds metadata .greater b a) ∧
    ((a.eval metadata).kind ≠ (b.eval metadata).kind →
      (¬Holds metadata .equal a b ∧ ¬Holds metadata .greater a b ∧
        ¬Holds metadata .greaterOrEqual a b) ∧
      Holds metadata .notEqual a b ∧ Holds metadata .less a b ∧ Holds metadata .lessOrEqual a b) ∧
    ((a.eval metadata).SameLine (b.eval metadata) →
      ExactlyOne (Holds metadata .greater a b) (Holds metadata .equal a b)
        (Holds metadata .greater b a)) := by
  refine ⟨fun op => not_holds_iff, holds_notEqual_iff, holds_less_iff, holds_lessOrEqual_iff,
    holds_greaterOrEqual_iff, not_holds_greater_and_equal, holds_equal_comm, not_holds_greater_both,
    fun h => ?_, exactlyOne_of_sameLine⟩
  obtain ⟨heq, hgt⟩ := not_holds_of_kind_ne h
  have hless : Holds metadata .less a b := holds_less_iff.2 hgt
  exact ⟨⟨heq, hgt, fun h => (holds_greaterOrEqual_iff.1 h).elim hgt heq⟩, holds_notEqual_iff.2 heq,
    hless, holds_lessOrEqual_iff.2 hless⟩

/-- A text is less than an integer, and the other way round; and two names that stand for the two zeros. -/
theorem comparison_laws_mixed :
    let metadata : Metadata := ⟨[("plan", .string "pro"), ("x", .float (.number true 0)),
      ("y", .float (.number false 0))]⟩
    let seats : Expr := .literal (.int 50)
    (((ident "plan").eval metadata).kind ≠ (seats.eval metadata).kind ∧
      Holds metadata .less (ident "plan") seats ∧ Holds metadata .less seats (ident "plan")) ∧
    ((ident "x").eval metadata).SameLine ((ident "y").eval metadata) ∧
    ExactlyOne (Holds metadata .greater (ident "x") (ident "y"))
      (Holds metadata .equal (ident "x") (ident "y")) (Holds metadata .greater (ident "y") (ident "x")) := by
  intro metadata seats
  obtain ⟨-, -, -, -, -, -, -, -, hkinds, -⟩ := comparison_laws metadata (ident "plan") seats
  obtain ⟨-, -, -, -, -, -, -, -, hkinds', -⟩ := comparison_laws metadata seats (ident "plan")
  obtain ⟨-, -, -, -, -, -, -, -, -, hline⟩ := comparison_laws metadata (ident "x") (ident "y")
  have hne : ((ident "plan").eval metadata).kind ≠ (seats.eval metadata).kind := by decide
  have hzeros : ((ident "x").eval metadata).SameLine ((ident "y").eval metadata) :=
    .floats (by decide) (by decide)
  exact ⟨⟨hne, (hkinds hne).2.2.1, (hkinds' hne.symm).2.2.1⟩, hzeros, hline hzeros⟩

end Expr

end FeatureToggles
