import FeatureToggles.Text.Basic

/-!
# Taking characters out

Texts without the characters of a class at their ends, and texts without a word.
-/

namespace FeatureToggles.Text

/-- Takes the characters of a class off both ends. -/
def trim (inside : CodePoint → Bool) (cs : List CodePoint) : List CodePoint :=
  ((cs.dropWhile inside).reverse.dropWhile inside).reverse

/-- Takes every occurrence of a word out, from left to right. -/
def without (word : List CodePoint) : List CodePoint → List CodePoint
  | [] => []
  | c :: rest =>
    if word.isPrefixOf (c :: rest) then without word (rest.drop (word.length - 1))
    else c :: without word rest
termination_by cs => cs.length
decreasing_by all_goals simp; try omega

/-! ### Trimming -/

variable {inside : CodePoint → Bool} {word cs before after : List CodePoint} {c : CodePoint}

theorem dropWhile_eq_self (h : ∀ c ∈ cs, inside c = false) : cs.dropWhile inside = cs := by
  cases cs with
  | nil => rfl
  | cons c rest => rw [List.dropWhile_cons_of_neg (by simp [h c List.mem_cons_self])]

theorem trim_eq_self (h : ∀ c ∈ cs, inside c = false) : trim inside cs = cs := by
  unfold trim
  rw [dropWhile_eq_self h, dropWhile_eq_self (by simpa using h), List.reverse_reverse]

/-- A text between characters of the class is what is left of them, if it has none of the class itself. -/
theorem trim_enclosed (hbefore : ∀ c ∈ before, inside c = true) (hcs : ∀ c ∈ cs, inside c = false)
    (hafter : ∀ c ∈ after, inside c = true) : trim inside (before ++ cs ++ after) = cs := by
  have hback : (after.reverse ++ cs.reverse).dropWhile inside = cs.reverse := by
    rw [List.dropWhile_append_of_pos (by simpa using hafter)]
    apply dropWhile_eq_self
    simpa using hcs
  unfold trim
  rw [List.append_assoc, List.dropWhile_append_of_pos hbefore]
  cases cs with
  | nil =>
    rw [List.nil_append, ← List.append_nil after, List.dropWhile_append_of_pos hafter]
    rfl
  | cons c rest =>
    rw [List.cons_append, List.dropWhile_cons_of_neg (by simp [hcs c List.mem_cons_self]),
      ← List.cons_append, List.reverse_append, hback, List.reverse_reverse]

/-- Trimming takes characters of the class off, and nothing else. -/
theorem exists_trim (inside : CodePoint → Bool) (cs : List CodePoint) :
    ∃ before after, (∀ c ∈ before, inside c = true) ∧ (∀ c ∈ after, inside c = true) ∧
      cs = before ++ trim inside cs ++ after := by
  have htaken (cs : List CodePoint) : ∀ c ∈ cs.takeWhile inside, inside c = true := by
    have hall := List.all_takeWhile (p := inside) (l := cs)
    rwa [List.all_eq_true] at hall
  refine ⟨cs.takeWhile inside, ((cs.dropWhile inside).reverse.takeWhile inside).reverse, htaken cs, ?_, ?_⟩
  · intro c hc
    exact htaken _ c (List.mem_reverse.1 hc)
  · unfold trim
    rw [List.append_assoc, ← List.reverse_append, List.takeWhile_append_dropWhile, List.reverse_reverse,
      List.takeWhile_append_dropWhile]

/-! ### Taking words out -/

/-- An occurrence at the front is taken out first. -/
theorem without_append (hword : word ≠ []) (cs : List CodePoint) :
    without word (word ++ cs) = without word cs := by
  cases word with
  | nil => exact absurd rfl hword
  | cons w ws =>
    rw [List.cons_append, without, if_pos]
    · rw [List.length_cons, Nat.add_sub_cancel, List.drop_left]
    · rw [← List.cons_append, List.isPrefixOf_iff_prefix]
      exact List.prefix_append _ _

/-- Nothing is taken out where no occurrence starts. -/
theorem without_cons (h : word.isPrefixOf (c :: cs) = false) :
    without word (c :: cs) = c :: without word cs := by
  rw [without, if_neg (by simp [h])]

theorem without_eq_self {w : CodePoint} {ws : List CodePoint} (h : w ∉ cs) : without (w :: ws) cs = cs := by
  induction cs with
  | nil => rw [without]
  | cons c rest ih =>
    rw [List.mem_cons, not_or] at h
    have hfirst : (w :: ws).isPrefixOf (c :: rest) = false := by simp [List.isPrefixOf, h.1]
    rw [without_cons hfirst, ih h.2]

/-- A character at the end that the word does not have stays there. -/
theorem without_concat (hword : word ≠ []) (hc : c ∉ word) (cs : List CodePoint) :
    without word (cs ++ [c]) = without word cs ++ [c] := by
  have hprefix (text : List CodePoint) : word.isPrefixOf (text ++ [c]) = word.isPrefixOf text := by
    rw [Bool.eq_iff_iff, List.isPrefixOf_iff_prefix, List.isPrefixOf_iff_prefix, List.prefix_concat_iff]
    constructor
    · intro h
      rcases h with rfl | h
      · simp at hc
      · exact h
    · exact .inr
  fun_induction without word cs with
  | case1 =>
    have hlast : word.isPrefixOf [c] = false := by
      rw [← List.nil_append [c], hprefix]
      cases word with
      | nil => exact absurd rfl hword
      | cons w ws => rfl
    rw [List.nil_append, without_cons hlast, without]
  | case2 d rest hfound ih =>
    have hlength : word.length - 1 ≤ rest.length := by
      have hle := (List.isPrefixOf_iff_prefix.1 hfound).length_le
      rw [List.length_cons] at hle
      omega
    have hfound' := hprefix (d :: rest)
    rw [List.cons_append, hfound] at hfound'
    rw [List.cons_append, without, if_pos hfound', List.drop_append_of_le_length hlength, ih]
  | case3 d rest hfound ih =>
    have hfound' := hprefix (d :: rest)
    rw [List.cons_append, Bool.eq_false_iff.2 hfound] at hfound'
    rw [List.cons_append, without_cons hfound', ih, List.cons_append]

end FeatureToggles.Text
