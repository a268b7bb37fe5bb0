import FeatureToggles.Literal
import Mathlib.Data.Int.Order.Basic
import Mathlib.Data.List.Lex
import Mathlib.Order.Lattice

/-!
# The order of literals

Every value has a place: on the line of texts, of integers or of binary64 numbers, or among the truth
values, which are on no line; a not-a-number is nowhere. Two values are equal if they are somewhere in one
place, and one is greater if its place is above the other's on the same line. So no comparison tells equal
values apart.
-/

namespace FeatureToggles

instance : LinearOrder CodePoint :=
  LinearOrder.lift' CodePoint.toNat fun _ _ => CodePoint.toNat_inj.1

instance : LinearOrder Text :=
  LinearOrder.lift' Text.toList fun _ _ => Text.toList_inj.1

/-- Where a value stands: on one of three lines, among the truth values, or nowhere. -/
inductive Place where
  | text (s : Text)
  | int (n : ℤ)
  | float (n : ℤ)
  | truth (b : Bool)
  | nowhere

namespace Place

variable {p q r : Place}

/-- Whether a place is below another one on the same line. -/
def Below : Place → Place → Prop
  | text s, text t => s < t
  | int m, int n => m < n
  | float m, float n => m < n
  | _, _ => False

/-- Whether a value at this place counts as true. -/
def IsTrue : Place → Prop
  | text s => s ≠ ""
  | int n => 0 < n
  | float n => 0 < n
  | truth b => b = true
  | nowhere => False

theorem not_below_self (p : Place) : ¬p.Below p := by
  cases p with
  | text s => exact lt_irrefl s
  | int n => exact lt_irrefl n
  | float n => exact lt_irrefl n
  | truth b => exact id
  | nowhere => exact id

theorem Below.trans (hpq : p.Below q) (hqr : q.Below r) : p.Below r := by
  unfold Below at hpq
  split at hpq
  · cases r with
    | text u => exact lt_trans hpq hqr
    | _ => exact hqr.elim
  · cases r with
    | int k => exact lt_trans hpq hqr
    | _ => exact hqr.elim
  · cases r with
    | float k => exact lt_trans hpq hqr
    | _ => exact hqr.elim
  · exact hpq.elim

/-- What is above something true is true: the empty text is the least one. -/
theorem Below.isTrue (h : p.Below q) (hp : p.IsTrue) : q.IsTrue := by
  unfold Below at h
  split at h
  · rintro rfl
    exact List.not_lt_nil _ h
  · exact lt_trans hp h
  · exact lt_trans hp h
  · exact h.elim

end Place

/-! ### Comparisons are comparisons of places -/

namespace Literal

variable {x x' y y' z : Literal}

/-- The place of a value. -/
def place : Literal → Place
  | string s => .text s
  | int n => .int n
  | float x => (x.place?.map .float).getD .nowhere
  | bool b => .truth b

/-- Values are equal if they are somewhere in one place. -/
theorem eq_iff : x.eq y = true ↔ x.place = y.place ∧ x.place ≠ .nowhere := by
  -- the kinds are compared pair by pair; a binary64 number is a not-a-number or has its place
  rcases x with s | m | (_ | _) | a <;> rcases y with t | n | (_ | _) | b <;>
    simp [eq, place, Binary64.eq, Binary64.place?]

/-- A value is greater if its place is above. -/
theorem gt_iff : x.gt y = true ↔ y.place.Below x.place := by
  rcases x with s | m | (_ | _) | a <;> rcases y with t | n | (_ | _) | b <;>
    simp [gt, place, Binary64.gt, Binary64.place?, Place.Below]

theorem isTrue_iff : x.isTrue = true ↔ x.place.IsTrue := by
  rcases x with s | m | (_ | _) | a <;>
    simp [isTrue, place, Binary64.isPositive, Binary64.place?, Place.IsTrue, ← Text.isEmpty_iff]

theorem place_eq_nowhere_iff : x.place = .nowhere ↔ x = .float .nan := by
  rcases x with s | m | (_ | _) | a <;> simp [place, Binary64.place?]

/-! ### Laws of the order -/

/-- All that counts in a comparison by size are the two places. -/
theorem gt_congr (hx : x.place = x'.place) (hy : y.place = y'.place) : x.gt y = x'.gt y' := by
  rw [Bool.eq_iff_iff, gt_iff, gt_iff, hx, hy]

theorem isTrue_congr (h : x.place = y.place) : x.isTrue = y.isTrue := by
  rw [Bool.eq_iff_iff, isTrue_iff, isTrue_iff, h]

theorem gt_self (x : Literal) : x.gt x = false := by
  rw [← Bool.not_eq_true, gt_iff]
  exact Place.not_below_self x.place

theorem gt_trans (hxy : x.gt y = true) (hyz : y.gt z = true) : x.gt z = true := by
  rw [gt_iff] at hxy hyz ⊢
  exact hyz.trans hxy

/-- Of two values at most one is greater than the other. -/
theorem gt_asymm (h : x.gt y = true) : y.gt x = false := by
  rw [← Bool.not_eq_true]
  intro hyx
  have hself : x.gt x = true := gt_trans h hyx
  rw [gt_self] at hself
  cases hself

theorem eq_comm (x y : Literal) : x.eq y = y.eq x := by
  rw [Bool.eq_iff_iff, eq_iff, eq_iff]
  constructor
  · exact fun h => ⟨h.1.symm, h.1 ▸ h.2⟩
  · exact fun h => ⟨h.1.symm, h.1 ▸ h.2⟩

theorem eq_trans (hxy : x.eq y = true) (hyz : y.eq z = true) : x.eq z = true := by
  rw [eq_iff] at hxy hyz ⊢
  exact ⟨hxy.1.trans hyz.1, hxy.2⟩

/-- Only a not-a-number does not equal itself. -/
theorem eq_self_iff : x.eq x = true ↔ x ≠ .float .nan := by
  rw [eq_iff, Ne, place_eq_nowhere_iff]
  exact and_iff_right rfl

/-- A value that is greater than another one does not equal it. -/
theorem gt_eq_false_of_eq (h : x.eq y = true) : x.gt y = false := by
  rw [gt_congr (eq_iff.1 h).1 rfl, gt_self]

theorem isTrue_of_gt (h : x.gt y = true) (hy : y.isTrue = true) : x.isTrue = true := by
  rw [isTrue_iff] at hy ⊢
  exact (gt_iff.1 h).isTrue hy

/-- **Coherence.** Being greater is a strict order, and being equal an equivalence among all values but the
not-a-number. No comparison and no truth value tells equal values apart, and what is greater than something
true is true. -/
theorem order_coherent :
    (∀ x : Literal, x.gt x = false) ∧
    (∀ x y : Literal, x.gt y = true → y.gt x = false) ∧
    (∀ x y z : Literal, x.gt y = true → y.gt z = true → x.gt z = true) ∧
    (∀ x y : Literal, x.eq y = y.eq x) ∧
    (∀ x y z : Literal, x.eq y = true → y.eq z = true → x.eq z = true) ∧
    (∀ x : Literal, x.eq x = true ↔ x ≠ .float .nan) ∧
    (∀ x y : Literal, x.eq y = true →
      (∀ z, x.gt z = y.gt z ∧ z.gt x = z.gt y) ∧ x.isTrue = y.isTrue) ∧
    ∀ x y : Literal, x.gt y = true → y.isTrue = true → x.isTrue = true := by
  refine ⟨gt_self, fun x y => gt_asymm, fun x y z => gt_trans, eq_comm, fun x y z => eq_trans,
    fun x => eq_self_iff, fun x y h => ?_, fun x y => isTrue_of_gt⟩
  have hplace : x.place = y.place := (eq_iff.1 h).1
  exact ⟨fun z => ⟨gt_congr hplace rfl, gt_congr rfl hplace⟩, isTrue_congr hplace⟩

/-- The two zeros are equal, so the least positive number is greater than both; and three texts. -/
theorem order_coherent_zeros :
    let zero : Literal := .float (.number false 0)
    let negativeZero : Literal := .float (.number true 0)
    let least : Literal := .float (.number false 1)
    negativeZero.eq zero = true ∧ least.gt negativeZero = least.gt zero ∧
      negativeZero.isTrue = zero.isTrue ∧
      (string "b").gt (string "ab") = true ∧ (string "ab").gt (string "a") = true ∧
      (string "b").gt (string "a") = true ∧ (string "a").gt (string "b") = false ∧
      (string "b").isTrue = true := by
  intro zero negativeZero least
  obtain ⟨-, hasymm, htrans, -, -, -, hcongr, htrue⟩ := order_coherent
  have heq : negativeZero.eq zero = true := by decide
  have hb : (string "b").gt (string "ab") = true := by decide
  have ha : (string "ab").gt (string "a") = true := by decide
  have hba : (string "b").gt (string "a") = true := htrans _ _ _ hb ha
  obtain ⟨hgt, htruth⟩ := hcongr _ _ heq
  exact ⟨heq, (hgt least).2, htruth, hb, ha, hba, hasymm _ _ hba, htrue _ _ hba (by decide)⟩

end Literal

end FeatureToggles
