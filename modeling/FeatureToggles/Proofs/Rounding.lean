import FeatureToggles.Decimal.Shortest
import Mathlib.Tactic.NormNum
import Mathlib.Tactic.Ring

/-!
# Rounding decimals to binary64 magnitudes

Rounding looks at the value of a ratio only, not at how it is written, and a decimal far beyond
either end of the format rounds as its exact ratio does. So two ways to write one decimal round
alike, and a magnitude that is written exactly rounds to itself.
-/

namespace FeatureToggles.Binary64

/-! ### Ratios -/

theorem roundDiv_mul_right {k : ℕ} (hk : 0 < k) (a b : ℕ) :
    roundDiv (a * k) (b * k) = roundDiv a b := by
  have hbelow : 2 * (a % b * k) < b * k ↔ 2 * (a % b) < b := by
    rw [← Nat.mul_assoc]
    exact Nat.mul_lt_mul_right hk
  have habove : b * k < 2 * (a % b * k) ↔ b < 2 * (a % b) := by
    rw [← Nat.mul_assoc]
    exact Nat.mul_lt_mul_right hk
  simp only [roundDiv, Nat.mul_div_mul_right _ _ hk, Nat.mul_mod_mul_right, hbelow, habove]

/-- A ratio of two whole numbers that divide evenly needs no rounding. -/
theorem roundDiv_mul_self {b : ℕ} (hb : 0 < b) (a : ℕ) : roundDiv (a * b) b = a := by
  simp [roundDiv, Nat.mul_div_cancel _ hb, hb]

theorem roundDiv_eq_zero {a b : ℕ} (h : 2 * a < b) : roundDiv a b = 0 := by
  have ha : a < b := by omega
  simp [roundDiv, Nat.div_eq_of_lt ha, Nat.mod_eq_of_lt ha, h]

theorem le_roundDiv {a b q : ℕ} (hb : 0 < b) (h : q * b ≤ a) : q ≤ roundDiv a b := by
  have hq : q ≤ a / b := (Nat.le_div_iff_mul_le hb).2 h
  simp only [roundDiv]
  split
  · exact hq
  · split <;> omega

theorem roundDiv_le {a b q : ℕ} (hb : 0 < b) (h : a < q * b) : roundDiv a b ≤ q := by
  have hq : a / b < q := (Nat.div_lt_iff_lt_mul hb).2 h
  simp only [roundDiv]
  split
  · omega
  · split <;> omega

/-- A ratio rounds to more than an odd number from halfway above it on. -/
theorem lt_roundDiv_iff {a b p : ℕ} (hb : 0 < b) (hp : p % 2 = 1) :
    p < roundDiv a b ↔ (2 * p + 1) * b ≤ 2 * a := by
  have hhalf : (2 * p + 1) * b = 2 * (p * b) + b := by ring
  rw [hhalf]
  rcases Nat.lt_trichotomy (a / b) p with hlt | heq | hgt
  · have hmul : a < p * b := (Nat.div_lt_iff_lt_mul hb).1 hlt
    have hround : roundDiv a b ≤ p := roundDiv_le hb hmul
    omega
  · -- the remainder decides, and a tie goes up to the even number
    have hdiv : p * b + a % b = a := heq ▸ Nat.div_add_mod' a b
    simp only [roundDiv, heq]
    split
    · omega
    · split <;> omega
  · have hmul : (p + 1) * b ≤ a := (Nat.le_div_iff_mul_le hb).1 hgt
    have hround : p + 1 ≤ roundDiv a b := le_roundDiv hb hmul
    rw [Nat.succ_mul] at hmul
    omega

/-- The number 1 in units of the least positive magnitude. -/
def one : ℕ := Nat.pow 2 1074

/-- The rank that a ratio rounds to before it is cut off at infinity. -/
def rankOf (num den : ℕ) : ℕ :=
  ((num * one / den).log2 - 52) * Nat.pow 2 52 +
    roundDiv (num * one) (den * Nat.pow 2 ((num * one / den).log2 - 52))

theorem val_roundRatio (num den : ℕ) :
    (roundRatio num den).val = min (rankOf num den) infinityRank := by
  rw [roundRatio, rankOf, one]

theorem rankOf_mul_right {k : ℕ} (hk : 0 < k) (num den : ℕ) :
    rankOf (num * k) (den * k) = rankOf num den := by
  rw [rankOf, rankOf, Nat.mul_right_comm num k one, Nat.mul_div_mul_right _ _ hk,
    Nat.mul_right_comm den k, roundDiv_mul_right hk]

/-- Equal ratios round alike. -/
theorem roundRatio_eq_of_mul_eq {num den num' den' : ℕ} (hden : 0 < den) (hden' : 0 < den')
    (h : num * den' = num' * den) : roundRatio num den = roundRatio num' den' := by
  apply Fin.ext
  rw [val_roundRatio, val_roundRatio, ← rankOf_mul_right hden' num den, h, Nat.mul_comm den den',
    rankOf_mul_right hden]

/-! ### Both ends of the format -/

theorem pow_pow_le {x a b n : ℕ} (hx : 0 < x) (h : a * b ≤ n) : (x ^ a) ^ b ≤ x ^ n := by
  rw [← Nat.pow_mul]
  exact Nat.pow_le_pow_right hx h

theorem one_eq_pow : one = (2 ^ 179) ^ 6 :=
  Nat.pow_mul 2 179 6

/-- The number of doublings that lead from the least positive magnitude to the number 1. -/
def oneDoublings : ℕ := 1074

theorem one_eq_two_pow : one = 2 ^ oneDoublings := by
  have hdoublings : 179 * 6 = oneDoublings := rfl
  rw [one_eq_pow, ← Nat.pow_mul, hdoublings]

theorem one_pos : 0 < one := by
  rw [one_eq_two_pow]
  exact Nat.two_pow_pos _

/-- The least positive magnitude is more than `10 ^ -324`. -/
theorem two_mul_one_le {n : ℕ} (hn : 325 ≤ n) : 2 * one ≤ 10 ^ n := by
  obtain ⟨k, rfl⟩ : ∃ k, n = k + 1 := ⟨n - 1, by omega⟩
  have hone : one ≤ 10 ^ k := by
    calc one = (2 ^ 179) ^ 6 := one_eq_pow
      _ ≤ (10 ^ 54) ^ 6 := Nat.pow_le_pow_left (by norm_num) 6
      _ ≤ 10 ^ k := pow_pow_le (by norm_num) (by omega)
  rw [Nat.pow_succ]
  omega

theorem pow_171_pow_6_le {n : ℕ} (hn : 309 ≤ n) : (2 ^ 171) ^ 6 ≤ 10 ^ n := by
  calc (2 ^ 171) ^ 6 = (2 ^ 171 * 2 ^ 171) ^ 3 := by ring
    _ ≤ (10 ^ 103) ^ 3 := Nat.pow_le_pow_left (by norm_num) 3
    _ ≤ 10 ^ n := pow_pow_le (by norm_num) (by omega)

/-- What is `10 ^ 309` or more is infinite. -/
theorem roundRatio_of_pow_le {num den n : ℕ} (hden : 0 < den) (hn : 309 ≤ n)
    (h : 10 ^ n * den ≤ num) : roundRatio num den = ⟨infinityRank, Nat.lt_succ_self _⟩ := by
  -- so many units that their doublings alone rank at infinity
  have hunits : (2 ^ (171 + 179)) ^ 6 ≤ num * one / den := by
    rw [Nat.le_div_iff_mul_le hden, one_eq_pow, Nat.pow_add, Nat.mul_pow, Nat.mul_right_comm]
    exact Nat.mul_le_mul_right _ (le_trans (Nat.mul_le_mul_right _ (pow_171_pow_6_le hn)) h)
  have hlog : (171 + 179) * 6 ≤ (num * one / den).log2 := by
    have hpos : 0 < (2 ^ (171 + 179)) ^ 6 := by positivity
    rw [Nat.le_log2 (Nat.ne_of_gt (lt_of_lt_of_le hpos hunits)), Nat.pow_mul]
    exact hunits
  apply Fin.ext
  rw [val_roundRatio, rankOf]
  generalize (num * one / den).log2 = l at hlog
  refine Nat.min_eq_right (le_trans ?_ (Nat.le_add_right _ _))
  exact Nat.mul_le_mul_right _ (by omega)

/-- What is less than `10 ^ -325` is zero. -/
theorem roundRatio_of_mul_pow_lt {num den n : ℕ} (hn : 325 ≤ n) (h : num * 10 ^ n < den) :
    roundRatio num den = 0 := by
  -- less than half a unit
  have hunits : 2 * (num * one) < den := by
    rw [Nat.mul_left_comm]
    exact lt_of_le_of_lt (Nat.mul_le_mul_left _ (two_mul_one_le hn)) h
  have hzero : num * one / den = 0 := Nat.div_eq_of_lt (by omega)
  apply Fin.ext
  rw [val_roundRatio, rankOf, hzero]
  simp [roundDiv_eq_zero hunits]

/-! ### Decimals -/

theorem pow_ten_le_two_pow (b : ℕ) : 10 ^ (b * 3 / 10) ≤ 2 ^ b := by
  rw [← Nat.pow_le_pow_iff_left (n := 10) (by norm_num), ← Nat.pow_mul, ← Nat.pow_mul]
  calc 10 ^ (b * 3 / 10 * 10) ≤ 10 ^ (3 * b) := Nat.pow_le_pow_right (by norm_num) (by omega)
    _ = (10 ^ 3) ^ b := Nat.pow_mul 10 3 b
    _ ≤ (2 ^ 10) ^ b := Nat.pow_le_pow_left (by norm_num) b
    _ = 2 ^ (b * 10) := by rw [← Nat.pow_mul, Nat.mul_comm]

theorem two_pow_le_pow_ten (b : ℕ) : 2 ^ (b + 1) ≤ 10 ^ (b / 3 + 1) := by
  calc 2 ^ (b + 1) ≤ 2 ^ (3 * (b / 3 + 1)) := Nat.pow_le_pow_right (by norm_num) (by omega)
    _ = (2 ^ 3) ^ (b / 3 + 1) := Nat.pow_mul 2 3 _
    _ ≤ 10 ^ (b / 3 + 1) := Nat.pow_le_pow_left (by norm_num) _

theorem roundRatio_of_large {m n : ℕ} {e : ℤ} (hm : m ≠ 0) (hn : 309 ≤ n)
    (h : (n : ℤ) ≤ e + (m.log2 * 3 / 10 : ℕ)) :
    roundRatio (m * 10 ^ e.toNat) (10 ^ (-e).toNat) = ⟨infinityRank, Nat.lt_succ_self _⟩ := by
  refine roundRatio_of_pow_le (Nat.pow_pos (by norm_num)) hn ?_
  have hm' : 10 ^ (m.log2 * 3 / 10) ≤ m := le_trans (pow_ten_le_two_pow _) (Nat.log2_self_le hm)
  calc 10 ^ n * 10 ^ (-e).toNat = 10 ^ (n + (-e).toNat) := (Nat.pow_add _ _ _).symm
    _ ≤ 10 ^ (m.log2 * 3 / 10 + e.toNat) := Nat.pow_le_pow_right (by norm_num) (by omega)
    _ = 10 ^ (m.log2 * 3 / 10) * 10 ^ e.toNat := Nat.pow_add _ _ _
    _ ≤ m * 10 ^ e.toNat := Nat.mul_le_mul_right _ hm'

theorem roundRatio_of_small {m n : ℕ} {e : ℤ} (hn : 325 ≤ n)
    (h : e + (m.log2 / 3 + 1 : ℕ) ≤ -(n : ℤ)) :
    roundRatio (m * 10 ^ e.toNat) (10 ^ (-e).toNat) = 0 := by
  refine roundRatio_of_mul_pow_lt hn ?_
  have hm' : m < 10 ^ (m.log2 / 3 + 1) := lt_of_lt_of_le Nat.lt_log2_self (two_pow_le_pow_ten _)
  rw [show e.toNat = 0 by omega, Nat.pow_zero, Nat.mul_one]
  calc m * 10 ^ n < 10 ^ (m.log2 / 3 + 1) * 10 ^ n :=
        Nat.mul_lt_mul_of_pos_right hm' (Nat.pow_pos (by norm_num))
    _ = 10 ^ (m.log2 / 3 + 1 + n) := (Nat.pow_add _ _ _).symm
    _ ≤ 10 ^ (-e).toNat := Nat.pow_le_pow_right (by norm_num) (by omega)

/-- A decimal rounds as its exact ratio does, also where the ratio is not formed. -/
theorem roundDecimal_eq_roundRatio (m : ℕ) (e : ℤ) :
    roundDecimal m e = roundRatio (m * 10 ^ e.toNat) (10 ^ (-e).toNat) := by
  rw [roundDecimal]
  split
  · next hm =>
    subst hm
    rw [Nat.zero_mul]
    refine (roundRatio_of_mul_pow_lt (Nat.le_refl _) ?_).symm
    rw [Nat.zero_mul]
    exact Nat.pow_pos (by norm_num)
  · next hm =>
    split
    · next hlarge => exact (roundRatio_of_large hm (Nat.le_refl _) hlarge).symm
    · split
      · next hsmall => exact (roundRatio_of_small (Nat.le_refl _) hsmall).symm
      · split
        · next he => rw [show (-e).toNat = 0 by omega, Nat.pow_zero]; rfl
        · next he => rw [show e.toNat = 0 by omega, Nat.pow_zero, Nat.mul_one]; rfl

/-- A power of ten can stand in the mantissa or in the exponent. -/
theorem roundDecimal_mul_pow (m k : ℕ) (e : ℤ) :
    roundDecimal (m * 10 ^ k) e = roundDecimal m (e + k) := by
  rw [roundDecimal_eq_roundRatio, roundDecimal_eq_roundRatio]
  refine roundRatio_eq_of_mul_eq (Nat.pow_pos (by norm_num)) (Nat.pow_pos (by norm_num)) ?_
  rw [Nat.mul_assoc, Nat.mul_assoc, Nat.mul_assoc, ← Nat.pow_add, ← Nat.pow_add, ← Nat.pow_add]
  congr 2
  omega

/-! ### Magnitudes of the format -/

/-- Among the numbers of units, those below `2 ^ 53` are their own ranks. -/
theorem units_of_lt {rank : ℕ} (h : rank < 2 ^ 53) : units rank = rank := by
  have hzero : doublings rank = 0 := by
    rw [doublings, Nat.pow_eq]
    omega
  rw [units, hzero, significand, Nat.pow_eq, if_pos h, Nat.pow_eq, Nat.pow_zero, Nat.mul_one]

theorem significand_of_le {rank : ℕ} (h : 2 ^ 53 ≤ rank) :
    significand rank = 2 ^ 52 + rank % 2 ^ 52 := by
  simp only [significand, Nat.pow_eq]
  exact if_neg (Nat.not_lt.2 h)

/-- From `2 ^ 53` units on a magnitude is a significand of 53 bits, doubled some times. -/
theorem log2_units {rank : ℕ} (h : 2 ^ 53 ≤ rank) : (units rank).log2 = 52 + doublings rank := by
  -- the significand has exactly 53 bits
  have hlow : 2 ^ 52 ≤ significand rank := by
    rw [significand_of_le h]
    exact Nat.le_add_right _ _
  have hhigh : significand rank < 2 ^ 53 := by
    rw [significand_of_le h]
    omega
  have hpos : 0 < 2 ^ doublings rank := Nat.two_pow_pos _
  rw [units, Nat.pow_eq, Nat.log2_eq_iff (Nat.ne_of_gt (Nat.mul_pos (by omega) hpos))]
  constructor
  · rw [Nat.pow_add]
    exact Nat.mul_le_mul_right _ hlow
  · rw [show 52 + doublings rank + 1 = 53 + doublings rank by omega, Nat.pow_add]
    exact Nat.mul_lt_mul_of_pos_right hhigh hpos

theorem rankOf_units {rank : ℕ} : rankOf (units rank) one = rank := by
  rw [rankOf, Nat.mul_div_cancel _ one_pos, Nat.mul_comm one, roundDiv_mul_right one_pos]
  -- below `2 ^ 53` units the step between magnitudes is one unit
  rcases Nat.lt_or_ge rank (2 ^ 53) with h | h
  · have hlog : rank.log2 < 53 := by
      rcases Nat.eq_zero_or_pos rank with rfl | hpos
      · norm_num
      · exact (Nat.log2_lt (Nat.ne_of_gt hpos)).2 h
    rw [units_of_lt h, show rank.log2 - 52 = 0 by omega, Nat.zero_mul, Nat.zero_add]
    simpa using roundDiv_mul_self Nat.one_pos rank
  · have hdiv : roundDiv (units rank) (Nat.pow 2 (doublings rank)) = significand rank :=
      roundDiv_mul_self (Nat.two_pow_pos _) _
    rw [log2_units h, Nat.add_sub_cancel_left, hdiv, significand_of_le h, doublings, Nat.pow_eq]
    omega

theorem roundRatio_units {rank : Rank} (h : rank.val < infinityRank) :
    roundRatio (units rank) one = rank := by
  apply Fin.ext
  rw [val_roundRatio, rankOf_units]
  exact Nat.min_eq_left (Nat.le_of_lt h)

theorem roundDecimal_five_pow {n : ℕ} (hone : one = 2 ^ n) (u : ℕ) :
    roundDecimal (u * Nat.pow 5 n) (-(n : ℤ)) = roundRatio u one := by
  have hpow : 5 ^ n * 2 ^ n = 10 ^ n := (Nat.mul_pow 5 2 n).symm
  rw [roundDecimal_eq_roundRatio]
  refine roundRatio_eq_of_mul_eq (Nat.pow_pos (by norm_num)) (hone ▸ Nat.two_pow_pos n) ?_
  rw [show (-(n : ℤ)).toNat = 0 by omega, Nat.pow_zero, Nat.mul_one, neg_neg, Int.toNat_natCast, hone,
    Nat.pow_eq, Nat.mul_assoc, hpow]

/-- A magnitude that is written exactly rounds to itself. -/
theorem roundDecimal_exactly {rank : Rank} (h : rank.val < infinityRank) :
    roundDecimal (Decimal.exactly rank).mantissa (Decimal.exactly rank).exponent = rank := by
  have hone : one = 2 ^ 1074 := by rw [one, Nat.pow_eq]
  rw [Decimal.exactly]
  exact (roundDecimal_five_pow hone (units rank)).trans (roundRatio_units h)

/-! ### Overflow -/

/-- The midpoint between the greatest finite magnitude, `(2 ^ 53 - 1) * 2 ^ 971`, and `2 ^ 1024`, which
would be the next one. -/
def overflow : ℕ := (2 ^ 54 - 1) * 2 ^ 970

/-- The significand of a ratio has at most 53 bits, or is rounded up to one bit more. -/
theorem roundDiv_ratio_le {num den d : ℕ} (hden : 0 < den) (hd : (num * one / den).log2 ≤ 52 + d) :
    roundDiv (num * one) (den * 2 ^ d) ≤ 2 ^ 53 := by
  apply roundDiv_le (Nat.mul_pos hden (Nat.two_pow_pos d))
  have hlt : num * one / den < 2 ^ (53 + d) := by
    apply lt_of_lt_of_le Nat.lt_log2_self
    exact Nat.pow_le_pow_right (by decide) (by omega)
  rw [Nat.div_lt_iff_lt_mul hden, Nat.pow_add] at hlt
  calc num * one < 2 ^ 53 * 2 ^ d * den := hlt
    _ = 2 ^ 53 * (den * 2 ^ d) := by ring

/-- The significand of a ratio beyond the least magnitudes has 53 bits at least. -/
theorem le_roundDiv_ratio {num den d : ℕ} (hden : 0 < den) (hd : 52 + d ≤ (num * one / den).log2) :
    2 ^ 52 ≤ roundDiv (num * one) (den * 2 ^ d) := by
  apply le_roundDiv (Nat.mul_pos hden (Nat.two_pow_pos d))
  have hne : num * one / den ≠ 0 := by
    intro hzero
    rw [hzero] at hd
    simp at hd
  have hle : 2 ^ (52 + d) ≤ num * one / den :=
    le_trans (Nat.pow_le_pow_right (by decide) hd) (Nat.log2_self_le hne)
  rw [Nat.le_div_iff_mul_le hden, Nat.pow_add] at hle
  calc 2 ^ 52 * (den * 2 ^ d) = 2 ^ 52 * 2 ^ d * den := by ring
    _ ≤ num * one := hle

/-- A ratio rounds to a finite number if it lies below the midpoint. -/
theorem rankOf_lt_iff {num den : ℕ} (hden : 0 < den) :
    rankOf num den < infinityRank ↔ num < overflow * den := by
  have hinfinity : infinityRank = 2047 * 2 ^ 52 := by rw [infinityRank, Nat.pow_eq]
  obtain ⟨k, hk, hoverflow⟩ : ∃ k, k = 970 ∧ overflow = (2 ^ 54 - 1) * 2 ^ k := ⟨970, rfl, rfl⟩
  have hone : one = 2 ^ (k + 104) := by rw [one_eq_two_pow, oneDoublings, hk]
  rw [rankOf, hinfinity, hoverflow, Nat.pow_eq, Nat.pow_eq]
  have hle : roundDiv (num * one) (den * 2 ^ ((num * one / den).log2 - 52)) ≤ 2 ^ 53 :=
    roundDiv_ratio_le hden (by omega)
  have hbelow : num * one / den < 2 ^ ((num * one / den).log2 + 1) := Nat.lt_log2_self
  rcases Nat.lt_trichotomy (num * one / den).log2 (2 * k + 157) with h | h | h
  · -- finite even if the significand is rounded up
    have hlt : num * one / den < 2 ^ (2 * k + 157) :=
      lt_of_lt_of_le hbelow (Nat.pow_le_pow_right (by decide) h)
    have hpow : 2 ^ (2 * k + 157) * den = 2 ^ 53 * (2 ^ k * den) * one := by
      rw [hone]
      ring
    rw [Nat.div_lt_iff_lt_mul hden, hpow] at hlt
    have hnum : num < 2 ^ 53 * (2 ^ k * den) := Nat.lt_of_mul_lt_mul_right hlt
    rw [Nat.mul_assoc]
    omega
  · -- infinite just if the significand is rounded up
    have hpow : den * 2 ^ (2 * k + 157 - 52) = den * 2 ^ (k + 1) * one := by
      rw [hone, show 2 * k + 157 - 52 = k + 1 + (k + 104) by omega, Nat.pow_add, Nat.mul_assoc]
    have hup : 2 ^ 53 - 1 < roundDiv num (den * 2 ^ (k + 1))
        ↔ (2 * (2 ^ 53 - 1) + 1) * (2 * (2 ^ k * den)) ≤ 2 * num := by
      rw [lt_roundDiv_iff (Nat.mul_pos hden (Nat.two_pow_pos _)) (by decide),
        show den * 2 ^ (k + 1) = 2 * (2 ^ k * den) by ring]
    rw [h, hpow, roundDiv_mul_right one_pos] at hle ⊢
    rw [Nat.mul_assoc]
    omega
  · have hge : 2 ^ 52 ≤ roundDiv (num * one) (den * 2 ^ ((num * one / den).log2 - 52)) :=
      le_roundDiv_ratio hden (by omega)
    have hne : num * one / den ≠ 0 := by
      intro hzero
      rw [hzero] at h
      simp at h
    have hlt : 2 ^ (2 * k + 158) ≤ num * one / den :=
      le_trans (Nat.pow_le_pow_right (by decide) h) (Nat.log2_self_le hne)
    have hpow : 2 ^ (2 * k + 158) * den = 2 ^ 54 * (2 ^ k * den) * one := by
      rw [hone]
      ring
    rw [Nat.le_div_iff_mul_le hden, hpow] at hlt
    have hnum : 2 ^ 54 * (2 ^ k * den) ≤ num := Nat.le_of_mul_le_mul_right hlt one_pos
    rw [Nat.mul_assoc]
    omega

/-- An integer rounds to a finite number if it lies below the midpoint. -/
theorem rankOf_natural_lt_iff (n : ℕ) : rankOf n 1 < infinityRank ↔ n < overflow := by
  have hratio : rankOf n 1 < infinityRank ↔ n < overflow * 1 := rankOf_lt_iff Nat.one_pos
  rwa [Nat.mul_one] at hratio

/-- An integer has a finite nearest number if it lies between the midpoints. -/
theorem isSome_ofInt?_iff (n : ℤ) : (ofInt? n).isSome = true ↔ n.natAbs < overflow := by
  rw [← rankOf_natural_lt_iff, ofInt?]
  simp only [isFinite, val_roundRatio]
  split
  · next h =>
    rw [decide_eq_true_eq] at h
    simp only [Option.isSome_some, true_iff]
    omega
  · next h =>
    rw [decide_eq_true_eq] at h
    simp only [Option.isSome_none, Bool.false_eq_true, false_iff]
    omega

end FeatureToggles.Binary64

namespace FeatureToggles.Decimal

/-- A decimal that is taken for a magnitude reads back as this magnitude. -/
theorem readsAs_of_ofLength? {rank : Rank} {num den : ℕ} {place : ℤ} {count : ℕ} {x : Scaled}
    (h : ofLength? rank num den place count = some x) : x.readsAs rank = true := by
  simp only [ofLength?] at h
  split at h
  · next hbelow _ =>
    cases h
    exact hbelow
  · next _ habove =>
    cases h
    exact habove
  · cases h
  · next hbelow habove =>
    cases h
    split
    · exact hbelow
    · exact habove

theorem readsAs_getD {rank : Rank} {candidate : ℕ → Option Scaled} {fallback : Scaled}
    (hcandidate : ∀ count x, candidate count = some x → x.readsAs rank = true)
    (hfallback : fallback.readsAs rank = true) (counts : List ℕ) :
    ((counts.findSome? candidate).getD fallback).readsAs rank = true := by
  cases hfound : counts.findSome? candidate with
  | none => exact hfallback
  | some x =>
    obtain ⟨count, -, hcount⟩ := List.exists_of_findSome?_eq_some hfound
    exact hcandidate count x hcount

/-- The shortest decimal of a finite magnitude reads back as this magnitude. -/
theorem readsAs_shortest {rank : Rank} (h : rank.val < infinityRank) :
    (shortest rank).readsAs rank = true := by
  rw [shortest]
  split
  · next hzero =>
    have hrank : rank = 0 := Fin.ext hzero
    rw [hrank]
    rfl
  · refine readsAs_getD (fun count x => readsAs_of_ofLength?) ?_ _
    rw [Scaled.readsAs, Binary64.roundDecimal_exactly h, beq_self_eq_true]

end FeatureToggles.Decimal
