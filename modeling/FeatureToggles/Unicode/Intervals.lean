import FeatureToggles.Text.Basic

/-!
# Interval tables

A property of characters is given by the closed intervals of code points that have it, listed in
increasing order and apart from each other.
-/

namespace FeatureToggles.Unicode

/-- Whether `n` lies in one of the intervals. The search ends at the first interval beyond `n`, so the
intervals have to be listed in increasing order. -/
def covers : List (Nat × Nat) → Nat → Bool
  | [], _ => false
  | (lo, hi) :: rest, n => if n < lo then false else n ≤ hi || covers rest n

/-- Whether the intervals are non-empty, apart from each other and in increasing order, all from
`start` on. -/
def increasingFrom : Nat → List (Nat × Nat) → Bool
  | _, [] => true
  | start, (lo, hi) :: rest => start ≤ lo && lo ≤ hi && increasingFrom (hi + 1) rest

/-! ### Tables that have nothing in common -/

/-- Whether no interval of the first table meets one of the second. Intervals of the second that end before
one of the first starts are left behind, so both tables have to be in increasing order. -/
def apart : List (Nat × Nat) → List (Nat × Nat) → Bool
  | [], _ => true
  | (lo, hi) :: rest, others =>
    let later := others.dropWhile (·.2 < lo)
    later.head?.all (hi < ·.1) && apart rest later

/-- What ends before `lo` can be left behind from `lo` on. -/
theorem covers_dropWhile {table : List (Nat × Nat)} {start lo n : Nat}
    (h : increasingFrom start table = true) (hn : lo ≤ n) :
    ∃ start', increasingFrom start' (table.dropWhile (·.2 < lo)) = true ∧
      covers (table.dropWhile (·.2 < lo)) n = covers table n := by
  induction table generalizing start with
  | nil => exact ⟨0, rfl, rfl⟩
  | cons head rest ih =>
    by_cases hbehind : head.2 < lo
    · simp only [increasingFrom, Bool.and_eq_true, decide_eq_true_eq] at h
      obtain ⟨start', hincreasing, hcovers⟩ := ih h.2
      rw [List.dropWhile_cons_of_pos (by simpa using hbehind)]
      refine ⟨start', hincreasing, ?_⟩
      rw [hcovers, covers, if_neg (by omega), decide_eq_false (by omega), Bool.false_or]
    · rw [List.dropWhile_cons_of_neg (by simpa using hbehind)]
      exact ⟨start, h, rfl⟩

/-- Tables that are apart cover nothing in common. -/
theorem covers_of_apart {table others : List (Nat × Nat)} {start start' : Nat}
    (htable : increasingFrom start table = true) (hothers : increasingFrom start' others = true)
    (h : apart table others = true) {n : Nat} (hn : covers table n = true) :
    covers others n = false := by
  induction table generalizing start start' others with
  | nil => cases hn
  | cons head rest ih =>
    obtain ⟨lo, hi⟩ := head
    simp only [increasingFrom, Bool.and_eq_true, decide_eq_true_eq] at htable
    simp only [apart, Bool.and_eq_true] at h
    rw [covers] at hn
    split at hn
    · cases hn
    · next hlo =>
      obtain ⟨start'', hincreasing, hcovers⟩ := covers_dropWhile hothers (Nat.not_lt.1 hlo)
      rw [← hcovers]
      rw [Bool.or_eq_true, decide_eq_true_eq] at hn
      rcases hn with hhi | hn
      · -- in the head interval, which ends before the other table goes on
        cases hlater : others.dropWhile (·.2 < lo) with
        | nil => rfl
        | cons next more =>
          have hnext : hi < next.1 := by simpa [hlater] using h.1
          rw [covers, if_pos (by omega)]
      · exact ih htable.2 hincreasing h.2 hn

end FeatureToggles.Unicode
