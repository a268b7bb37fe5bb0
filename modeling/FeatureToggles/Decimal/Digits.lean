import FeatureToggles.Text.Basic

/-!
# Decimal digits of a number

The digits of a natural number, most significant first, and the number that a list of digit values
stands for.
-/

namespace FeatureToggles.Decimal

/-- The character of a digit below ten. -/
def digitChar (d : Nat) : CodePoint :=
  CodePoint.ofNat ('0'.toNat + d)

/-- Puts the decimal digits of `n` in front of `rest`. -/
def digitsOnto (n : Nat) (rest : List Nat) : List Nat :=
  if n < 10 then n :: rest else digitsOnto (n / 10) (n % 10 :: rest)
termination_by n

/-- The decimal digits of `n`, most significant first and without leading zeros; zero has one digit. -/
def digits (n : Nat) : List Nat :=
  digitsOnto n []

/-- The number that digit values stand for, most significant first. -/
def ofDigits (ds : List Nat) : Nat :=
  ds.foldl (fun n d => 10 * n + d) 0

/-- The decimal text of a natural number. -/
def natText (n : Nat) : List CodePoint :=
  (digits n).map digitChar

/-- The decimal text of an integer, with a minus sign in front of a negative one. -/
def intText : Int → List CodePoint
  | .ofNat n => natText n
  | .negSucc n => '-' :: natText (n + 1)

theorem foldl_digitsOnto (n : Nat) (rest : List Nat) (start : Nat) :
    ∃ shift, (digitsOnto n rest).foldl (fun n d => 10 * n + d) start
      = rest.foldl (fun n d => 10 * n + d) (start * shift + n) := by
  fun_induction digitsOnto n rest with
  | case1 n rest => exact ⟨10, by simp [Nat.mul_comm]⟩
  | case2 n rest _ ih =>
    obtain ⟨shift, hshift⟩ := ih
    refine ⟨shift * 10, ?_⟩
    rw [hshift, List.foldl_cons]
    congr 1
    have : 10 * (start * shift) = start * (shift * 10) := by
      rw [Nat.mul_comm 10, Nat.mul_assoc]
    rw [Nat.mul_add]
    omega

/-- The digits of a number stand for it. -/
theorem ofDigits_digits (n : Nat) : ofDigits (digits n) = n := by
  obtain ⟨shift, hshift⟩ := foldl_digitsOnto n [] 0
  simpa [ofDigits, digits] using hshift

theorem lt_ten_of_mem_digitsOnto {n d : Nat} {rest : List Nat} (hrest : ∀ d ∈ rest, d < 10)
    (h : d ∈ digitsOnto n rest) : d < 10 := by
  fun_induction digitsOnto n rest with
  | case1 n rest hn =>
    rcases List.mem_cons.1 h with rfl | h
    · exact hn
    · exact hrest d h
  | case2 n rest _ ih =>
    refine ih (fun e he => ?_) h
    rcases List.mem_cons.1 he with rfl | he
    · exact Nat.mod_lt _ (by decide)
    · exact hrest e he

/-- Digits are below ten. -/
theorem lt_ten_of_mem_digits {n d : Nat} (h : d ∈ digits n) : d < 10 :=
  lt_ten_of_mem_digitsOnto (by simp) h

end FeatureToggles.Decimal
