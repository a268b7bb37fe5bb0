import FeatureToggles.Decimal.Layout
import FeatureToggles.Decimal.Numeral
import FeatureToggles.Proofs.Rounding
import Mathlib.Data.List.Induction
import Mathlib.Data.List.TakeWhile

/-!
# Numbers as they are written

A written number is a numeral: every integer and every finite binary64 number is written as the text
of a numeral that stands for it.
-/

namespace FeatureToggles.Decimal

open CodePoint (char)

/-! ### Digits -/

theorem ofDigits_append (as bs : List ℕ) :
    ofDigits (as ++ bs) = ofDigits as * 10 ^ bs.length + ofDigits bs := by
  have hstart (start : ℕ) : bs.foldl (fun n d => 10 * n + d) start
      = start * 10 ^ bs.length + bs.foldl (fun n d => 10 * n + d) 0 := by
    induction bs generalizing start with
    | nil => simp
    | cons b bs ih =>
      rw [List.foldl_cons, List.foldl_cons, ih, ih (10 * 0 + b), List.length_cons, Nat.pow_succ]
      ring
  rw [ofDigits, ofDigits, ofDigits, List.foldl_append, hstart]

theorem ofDigits_replicate_zero (k : ℕ) : ofDigits (List.replicate k 0) = 0 := by
  induction k with
  | zero => rfl
  | succ k ih => rw [List.replicate_succ', ofDigits_append, ih]; rfl

theorem ofDigits_append_zeros (ds : List ℕ) (k : ℕ) :
    ofDigits (ds ++ List.replicate k 0) = ofDigits ds * 10 ^ k := by
  rw [ofDigits_append, ofDigits_replicate_zero, List.length_replicate, Nat.add_zero]

theorem ofDigits_zeros_append (ds : List ℕ) (k : ℕ) :
    ofDigits (List.replicate k 0 ++ ds) = ofDigits ds := by
  rw [ofDigits_append, ofDigits_replicate_zero, Nat.zero_mul, Nat.zero_add]

/-- Digits below ten stand for a number below the power of ten that their count names. -/
theorem ofDigits_lt {ds : List ℕ} (h : ∀ d ∈ ds, d < 10) : ofDigits ds < 10 ^ ds.length := by
  induction ds using List.reverseRecOn with
  | nil => exact Nat.one_pos
  | append_singleton ds d ih =>
    have hlast : d < 10 := h d (by simp)
    have hinit := ih fun e he => h e (by simp [he])
    have hone : ofDigits [d] = d := Nat.zero_add d
    rw [ofDigits_append, hone, List.length_append, List.length_singleton, Nat.pow_succ]
    omega

theorem digitsOnto_ne_nil (n : ℕ) (rest : List ℕ) : digitsOnto n rest ≠ [] := by
  fun_induction digitsOnto n rest with
  | case1 => simp
  | case2 _ _ _ ih => exact ih

theorem digits_ne_nil (n : ℕ) : digits n ≠ [] := digitsOnto_ne_nil n []

/-- The first digit of a number that is not zero is not zero. -/
theorem head?_digits_ne_zero {n : ℕ} (h : n ≠ 0) : (digits n).head? ≠ some 0 := by
  have hgo (rest : List ℕ) : (digitsOnto n rest).head? ≠ some 0 := by
    fun_induction digitsOnto n rest with
    | case1 => simpa using h
    | case2 n rest hn ih => exact ih (by omega)
  exact hgo []

/-- A number has as many digits as it needs and no more. -/
theorem length_digits_le {n k : ℕ} (hk : 0 < k) (h : n < 10 ^ k) : (digits n).length ≤ k := by
  -- each digit that is taken off the end takes one power of ten off the bound
  have hgo (n k : ℕ) (rest : List ℕ) (hk : 0 < k) (h : n < 10 ^ k) :
      (digitsOnto n rest).length ≤ rest.length + k := by
    induction k generalizing n rest with
    | zero => omega
    | succ k ih =>
      rw [digitsOnto]
      split
      · rw [List.length_cons]
        omega
      · next hn =>
        have hk' : 0 < k := by
          rcases Nat.eq_zero_or_pos k with rfl | hk'
          · omega
          · exact hk'
        have hdiv : n / 10 < 10 ^ k := by
          rw [Nat.pow_succ] at h
          omega
        have := ih (n / 10) (n % 10 :: rest) hk' hdiv
        rw [List.length_cons] at this
        omega
  simpa [digits] using hgo n k [] hk h

/-- Only zeros are dropped. -/
theorem exists_dropTrailingZeros (ds : List ℕ) :
    ∃ k, ds = dropTrailingZeros ds ++ List.replicate k 0 := by
  cases ds with
  | nil => exact ⟨0, rfl⟩
  | cons d rest =>
    -- the zeros are dropped off the start of the reversed digits
    have hzeros : ∀ z ∈ rest.reverse.takeWhile (· == 0), z = 0 := by
      intro z hz
      simpa using List.mem_takeWhile_imp hz
    have hrest : rest = (rest.reverse.dropWhile (· == 0)).reverse
        ++ List.replicate (rest.reverse.takeWhile (· == 0)).length 0 := by
      calc rest = (rest.reverse.takeWhile (· == 0) ++ rest.reverse.dropWhile (· == 0)).reverse := by
            rw [List.takeWhile_append_dropWhile, List.reverse_reverse]
        _ = (rest.reverse.dropWhile (· == 0)).reverse ++ (rest.reverse.takeWhile (· == 0)).reverse :=
            List.reverse_append
        _ = _ := by
            rw [List.eq_replicate_of_mem hzeros, List.reverse_replicate, List.length_replicate]
    exact ⟨_, congrArg (d :: ·) hrest⟩

theorem head?_dropTrailingZeros (ds : List ℕ) : (dropTrailingZeros ds).head? = ds.head? := by
  cases ds <;> rfl

/-! ### Numerals -/

namespace Numeral

/-- The sign of a number, which only a negative one has. -/
def signText (negative : Bool) : List CodePoint :=
  if negative then [char '-'] else []

/-- The point of a number and what follows it, where anything does. -/
def fractionText (fraction : List ℕ) : List CodePoint :=
  if fraction.isEmpty then [] else '.' :: fraction.map digitChar

/-- The exponent of a number, where it has one. -/
def powerText (exponent : Option ℤ) : List CodePoint :=
  exponent.elim [] fun e => 'e' :: exponentText e

/-- A numeral as it is written. Its parts follow each other, and a missing part leaves no trace. -/
def text (x : Numeral) : List CodePoint :=
  signText x.negative
    ++ (x.whole.map digitChar ++ (fractionText x.fraction ++ powerText x.exponent))

/-- A numeral of digits, at least one of them before the point and without leading zeros there. -/
structure Proper (x : Numeral) : Prop where
  whole_lt : ∀ d ∈ x.whole, d < 10
  fraction_lt : ∀ d ∈ x.fraction, d < 10
  whole_ne_nil : x.whole ≠ []
  whole_head : x.whole = [0] ∨ x.whole.head? ≠ some 0

/-- The numeral of an integer. -/
def ofInt (n : ℤ) : Numeral :=
  ⟨decide (n < 0), digits n.natAbs, [], none⟩

theorem text_ofInt (n : ℤ) : (ofInt n).text = intText n := by
  cases n with
  | ofNat n =>
    simp [ofInt, text, signText, fractionText, powerText, intText, natText]
  | negSucc n =>
    have hsign : Int.negSucc n < 0 := Int.negSucc_lt_zero n
    simp [ofInt, text, signText, fractionText, powerText, intText, natText, hsign]

theorem head_digits (n : ℕ) : digits n = [0] ∨ (digits n).head? ≠ some 0 := by
  rcases Nat.eq_zero_or_pos n with rfl | hn
  · left
    rw [digits, digitsOnto]
    rfl
  · exact Or.inr (head?_digits_ne_zero (Nat.ne_of_gt hn))

theorem proper_ofInt (n : ℤ) : (ofInt n).Proper where
  whole_lt _ := lt_ten_of_mem_digits
  fraction_lt _ h := by cases h
  whole_ne_nil := digits_ne_nil _
  whole_head := head_digits _

/-- An integer of not too many digits is what its numeral stands for. -/
theorem toInt?_ofInt {n : ℤ} (h : (digits n.natAbs).length ≤ maxIntegerDigits) :
    (ofInt n).toInt? = some n := by
  have hvalue : (if n < 0 then -(n.natAbs : ℤ) else (n.natAbs : ℤ)) = n := by
    split <;> omega
  rw [toInt?, ofInt, if_pos h, ofDigits_digits]
  simpa using hvalue

/-- An integer that is not written with too many digits does not have too many. -/
theorem length_digits_toInt? {x : Numeral} (hwhole : ∀ d ∈ x.whole, d < 10) {n : ℤ}
    (h : x.toInt? = some n) : (digits n.natAbs).length ≤ maxIntegerDigits := by
  rw [toInt?] at h
  split at h
  · next hlength =>
    have hnatAbs : n.natAbs = ofDigits x.whole := by
      rw [← Option.some.inj h]
      split <;> simp
    -- the written digits bound the number, and the number bounds the digits that it needs
    have hlt : ofDigits x.whole < 10 ^ x.whole.length := ofDigits_lt hwhole
    have hbound : 10 ^ x.whole.length ≤ 10 ^ maxIntegerDigits :=
      Nat.pow_le_pow_right (by decide) hlength
    rw [hnatAbs]
    exact length_digits_le (by decide) (lt_of_lt_of_le hlt hbound)
  · cases h

/-! ### Floats -/

variable {ds : List ℕ} {e : ℤ}

/-- The text is that of a numeral with a point or an exponent, which stands for the number. -/
def Spells (cs : List CodePoint) (value : Binary64) : Prop :=
  ∃ x : Numeral, x.Proper ∧ (x.fraction ≠ [] ∨ x.exponent ≠ none) ∧ x.text = cs ∧ x.toBinary64 = value

/-- Digits whose first one is worth `10 ^ e`: it is not zero, unless zero itself is written. -/
structure Leading (ds : List ℕ) (e : ℤ) : Prop where
  lt_ten : ∀ d ∈ ds, d < 10
  ne_nil : ds ≠ []
  head : ds.head? ≠ some 0 ∨ ds = [0] ∧ e = 0

/-- What is written with an exponent is a numeral of the same value. -/
theorem spells_scientific (h : Leading ds e) (negative : Bool) :
    Spells (signText negative ++ scientific (ds.map digitChar) e)
      (Binary64.ofDecimal negative (ofDigits ds) (e + 1 - ds.length)) := by
  cases ds with
  | nil => exact absurd rfl h.ne_nil
  | cons d rest =>
    refine ⟨⟨negative, [d], rest, some e⟩, ⟨?_, ?_, by simp, ?_⟩, Or.inr (by simp), ?_, ?_⟩
    · intro c hc
      rw [List.mem_singleton.1 hc]
      exact h.lt_ten d (List.mem_cons_self ..)
    · exact fun c hc => h.lt_ten c (List.mem_cons_of_mem _ hc)
    · rcases h.head with hd | ⟨hd, -⟩
      · exact Or.inr (by simpa using hd)
      · exact Or.inl (by simpa using congrArg (List.take 1) hd)
    · cases rest <;> simp [text, fractionText, powerText, scientific]
    · rw [toBinary64]
      congr 1
      simp only [Option.getD_some, List.length_cons]
      omega

/-- A number below one starts with a zero and the zeros that follow the point. -/
theorem spells_positional_of_neg (h : Leading ds e) (he : e < 0) (negative : Bool) :
    Spells (signText negative ++ positional (ds.map digitChar) e)
      (Binary64.ofDecimal negative (ofDigits ds) (e + 1 - ds.length)) := by
  have hzero : digitChar 0 = char '0' := rfl
  refine ⟨⟨negative, [0], List.replicate (-e - 1).toNat 0 ++ ds, none⟩,
    ⟨by simp, ?_, by simp, Or.inl rfl⟩, Or.inl (by simp [h.ne_nil]), ?_, ?_⟩
  · intro d hd
    rcases List.mem_append.1 hd with hd | hd
    · rw [List.eq_of_mem_replicate hd]
      omega
    · exact h.lt_ten d hd
  · simp [text, fractionText, powerText, positional, he, h.ne_nil, hzero]
  · rw [toBinary64, List.singleton_append, ← List.cons_append, ← List.replicate_succ,
      ofDigits_zeros_append]
    congr 1
    simp only [Option.getD_none, List.length_append, List.length_replicate]
    omega

/-- Digits that end before the point are filled up with zeros, and a zero follows the point. -/
theorem spells_positional_of_length_le (h : Leading ds e) (he : 0 ≤ e)
    (hlen : ds.length ≤ e.toNat + 1) (negative : Bool) :
    Spells (signText negative ++ positional (ds.map digitChar) e)
      (Binary64.ofDecimal negative (ofDigits ds) (e + 1 - ds.length)) := by
  have hzero : digitChar 0 = char '0' := rfl
  refine ⟨⟨negative, ds ++ List.replicate (e.toNat + 1 - ds.length) 0, [0], none⟩,
    ⟨?_, by simp, by simp [h.ne_nil], ?_⟩, Or.inl (by simp), ?_, ?_⟩
  · intro d hd
    rcases List.mem_append.1 hd with hd | hd
    · exact h.lt_ten d hd
    · rw [List.eq_of_mem_replicate hd]
      omega
  · rcases h.head with hd | ⟨rfl, rfl⟩
    · right
      cases ds with
      | nil => exact absurd rfl h.ne_nil
      | cons d rest => exact hd
    · exact Or.inl rfl
  · have hnot : ¬ e < 0 := by omega
    simp [text, fractionText, powerText, positional, hnot, hzero, List.take_of_length_le,
      List.drop_of_length_le, hlen]
  · -- the zeros that fill up and the one behind the point all stand in the exponent
    have hpad : ds ++ List.replicate (e.toNat + 1 - ds.length) 0 ++ [0]
        = ds ++ List.replicate (e.toNat + 1 - ds.length + 1) 0 := by
      rw [List.append_assoc, ← List.replicate_succ']
    rw [toBinary64, hpad, ofDigits_append_zeros, Binary64.ofDecimal, Binary64.roundDecimal_mul_pow]
    congr 2
    simp only [Option.getD_none, List.length_singleton]
    omega

/-- Digits that go on after the point are cut there. -/
theorem spells_positional_of_lt_length (h : Leading ds e) (he : 0 ≤ e)
    (hlen : e.toNat + 1 < ds.length) (negative : Bool) :
    Spells (signText negative ++ positional (ds.map digitChar) e)
      (Binary64.ofDecimal negative (ofDigits ds) (e + 1 - ds.length)) := by
  have hpart : ds.drop (e.toNat + 1) ≠ [] := by
    rw [Ne, List.drop_eq_nil_iff]
    omega
  refine ⟨⟨negative, ds.take (e.toNat + 1), ds.drop (e.toNat + 1), none⟩,
    ⟨fun d hd => h.lt_ten d (List.mem_of_mem_take hd),
      fun d hd => h.lt_ten d (List.mem_of_mem_drop hd), by simp [h.ne_nil], ?_⟩,
    Or.inl hpart, ?_, ?_⟩
  · right
    rw [List.head?_take, if_neg (by omega)]
    rcases h.head with hd | ⟨rfl, rfl⟩
    · exact hd
    · simp at hlen
  · have hnot : ¬ e < 0 := by omega
    have hfull : e.toNat + 1 - ds.length = 0 := by omega
    simp [text, fractionText, powerText, positional, hnot, hpart, hfull, List.map_take,
      List.map_drop, hlen]
  · rw [toBinary64, List.take_append_drop]
    congr 1
    simp only [Option.getD_none, List.length_drop]
    omega

/-- What is written positionally is a numeral of the same value. -/
theorem spells_positional (h : Leading ds e) (negative : Bool) :
    Spells (signText negative ++ positional (ds.map digitChar) e)
      (Binary64.ofDecimal negative (ofDigits ds) (e + 1 - ds.length)) := by
  rcases lt_or_ge e 0 with he | he
  · exact spells_positional_of_neg h he negative
  · rcases Nat.lt_or_ge (e.toNat + 1) ds.length with hlen | hlen
    · exact spells_positional_of_lt_length h he hlen negative
    · exact spells_positional_of_length_le h he hlen negative

theorem leading_dropTrailingZeros {m : ℕ} (h : m = 0 → e = 0) :
    Leading (dropTrailingZeros (digits m)) e where
  lt_ten d hd := by
    obtain ⟨k, hk⟩ := exists_dropTrailingZeros (digits m)
    exact lt_ten_of_mem_digits (n := m) (hk ▸ List.mem_append_left _ hd)
  ne_nil hnil := by
    have := head?_dropTrailingZeros (digits m)
    rw [hnil, List.head?_nil, eq_comm, List.head?_eq_none_iff] at this
    exact digits_ne_nil m this
  head := by
    rcases Nat.eq_zero_or_pos m with rfl | hm
    · refine Or.inr ⟨?_, h rfl⟩
      rw [digits, digitsOnto]
      rfl
    · rw [head?_dropTrailingZeros]
      exact Or.inl (head?_digits_ne_zero (Nat.ne_of_gt hm))

/-- Zeros that are not written do not count. -/
theorem roundDecimal_dropTrailingZeros (m : ℕ) (e : ℤ) :
    Binary64.roundDecimal (ofDigits (dropTrailingZeros (digits m)))
      (e + (digits m).length - (dropTrailingZeros (digits m)).length)
      = Binary64.roundDecimal m e := by
  -- the zeros that are dropped are a power of ten, which goes into the exponent
  obtain ⟨k, hk⟩ := exists_dropTrailingZeros (digits m)
  generalize dropTrailingZeros (digits m) = kept at hk
  have hm : m = ofDigits kept * 10 ^ k := by
    rw [← ofDigits_append_zeros, ← hk, ofDigits_digits]
  have hlen : (digits m).length = kept.length + k := by
    rw [hk, List.length_append, List.length_replicate]
  conv_rhs => rw [hm, Binary64.roundDecimal_mul_pow]
  congr 1
  omega

/-- Every finite number is written as a numeral that stands for it. -/
theorem spells_floatText (negative : Bool) {rank : Rank} (h : rank.val < infinityRank) :
    Spells (floatText Layout.json (.number negative rank)) (.number negative rank) := by
  have hreads : Binary64.roundDecimal (shortest rank).mantissa (shortest rank).exponent = rank := by
    simpa [Scaled.readsAs] using readsAs_shortest h
  -- only zero is written with the mantissa zero, and then with the exponent zero
  have hzero : (shortest rank).mantissa = 0 →
      (shortest rank).exponent + (digits (shortest rank).mantissa).length - 1 = 0 := by
    intro hm
    rw [hm, Binary64.roundDecimal, if_pos rfl] at hreads
    have hshortest : shortest rank = ⟨0, 0⟩ := by
      rw [shortest, ← hreads]
      exact if_pos rfl
    rw [hshortest, digits, digitsOnto]
    rfl
  -- both layouts write the same digits, which stand for the magnitude
  have hleading := leading_dropTrailingZeros hzero
  have hvalue : Binary64.number negative rank = Binary64.ofDecimal negative
      (ofDigits (dropTrailingZeros (digits (shortest rank).mantissa)))
      ((shortest rank).exponent + (digits (shortest rank).mantissa).length - 1 + 1
        - (dropTrailingZeros (digits (shortest rank).mantissa)).length) := by
    rw [Binary64.ofDecimal, Int.sub_add_cancel, roundDecimal_dropTrailingZeros, hreads]
  have htext : floatText Layout.json (.number negative rank)
      = signText negative ++ magnitudeText rank := by
    cases negative <;> simp [floatText, signText, Nat.ne_of_lt h]
  rw [htext, hvalue, magnitudeText]
  split
  · exact spells_positional hleading negative
  · exact spells_scientific hleading negative

end Numeral

end FeatureToggles.Decimal
