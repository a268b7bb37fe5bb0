import FeatureToggles.Text.Basic

/-!
# Hexadecimal digits

Numbers written in a fixed count of lower-case hexadecimal digits, and digits of either case read back.
-/

namespace FeatureToggles.Text

/-- The lower-case digit worth `n`, for `n` below sixteen. -/
def hexDigit (n : Nat) : CodePoint :=
  if n < 10 then CodePoint.ofNat ('0'.toNat + n) else CodePoint.ofNat ('a'.toNat + (n - 10))

/-- What a hexadecimal digit of either case is worth. -/
def hexValue? (c : CodePoint) : Option Nat :=
  if '0' ≤ c ∧ c ≤ '9' then some (c.toNat - '0'.toNat)
  else if 'a' ≤ c ∧ c ≤ 'f' then some (c.toNat - 'a'.toNat + 10)
  else if 'A' ≤ c ∧ c ≤ 'F' then some (c.toNat - 'A'.toNat + 10)
  else none

/-- The last `width` hexadecimal digits of `n`, leading zeros included. -/
def hexFixed : (width n : Nat) → List CodePoint
  | 0, _ => []
  | width + 1, n => hexFixed width (n / 16) ++ [hexDigit (n % 16)]

/-- The value of a list of hexadecimal digits, if it holds nothing else. -/
def hexNumber? (ds : List CodePoint) : Option Nat :=
  ds.foldlM (fun n c => (hexValue? c).map (16 * n + ·)) 0

theorem length_hexFixed (width n : Nat) : (hexFixed width n).length = width := by
  induction width generalizing n with
  | zero => rfl
  | succ width ih => simp [hexFixed, ih]

/-- Every digit reads back as what it is worth. -/
theorem hexValue?_hexDigit {n : Nat} (h : n < 16) : hexValue? (hexDigit n) = some n := by
  have all : ∀ n : Fin 16, hexValue? (hexDigit n.val) = some n.val := by decide
  exact all ⟨n, h⟩

theorem foldlM_hexFixed (width n start : Nat) :
    (hexFixed width n).foldlM (fun n c => (hexValue? c).map (16 * n + ·)) start
      = some (start * Nat.pow 16 width + n % Nat.pow 16 width) := by
  induction width generalizing n with
  | zero => simp [hexFixed, Nat.mod_one]
  | succ width ih =>
    have power : Nat.pow 16 (width + 1) = Nat.pow 16 width * 16 := rfl
    have step : n % Nat.pow 16 (width + 1) = 16 * (n / 16 % Nat.pow 16 width) + n % 16 := by
      rw [power, Nat.mul_comm, Nat.mod_mul, Nat.add_comm]
    rw [hexFixed, List.foldlM_append, ih]
    simp only [Option.bind_eq_bind, Option.bind_some, List.foldlM_cons, List.foldlM_nil,
      hexValue?_hexDigit (Nat.mod_lt n (by decide : 0 < 16)), Option.map_some, Option.pure_def,
      Option.some.injEq]
    rw [step, power, Nat.mul_add]
    have : 16 * (start * Nat.pow 16 width) = start * (Nat.pow 16 width * 16) := by
      rw [Nat.mul_comm (Nat.pow 16 width), Nat.mul_left_comm]
    omega

/-- A number that fits the width reads back. -/
theorem hexNumber?_hexFixed {width n : Nat} (h : n < Nat.pow 16 width) :
    hexNumber? (hexFixed width n) = some n := by
  rw [hexNumber?, foldlM_hexFixed, Nat.mod_eq_of_lt h, Nat.zero_mul, Nat.zero_add]

end FeatureToggles.Text
