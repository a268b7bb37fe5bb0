import FeatureToggles.RuleText.Token

/-!
# Positions of tokens

A token is recorded with the number of characters in front of it. So the tokens of a text stand within the
text, each behind the one before, and what cannot be a token stands within the text as well.
-/

namespace FeatureToggles.RuleText

/-- The tokens stand one behind the other, from the first of the positions on and before the second. -/
def Between (start stop : Nat) (tokens : List Token) : Prop :=
  tokens.Pairwise (·.position < ·.position) ∧ ∀ t ∈ tokens, start ≤ t.position ∧ t.position < stop

variable {start start' stop : Nat} {ts : List Token} {t : Token}

theorem between_nil : Between start stop [] :=
  ⟨.nil, fun _ ht => absurd ht List.not_mem_nil⟩

theorem Between.mono (h : Between start' stop ts) (hstart : start ≤ start') : Between start stop ts :=
  ⟨h.1, fun t ht => ⟨Nat.le_trans hstart (h.2 t ht).1, (h.2 t ht).2⟩⟩

theorem Between.cons (h : Between start' stop ts) (hstart : t.position < start')
    (hstop : t.position < stop) : Between t.position stop (t :: ts) := by
  refine ⟨List.pairwise_cons.2 ⟨fun s hs => ?_, h.1⟩, List.forall_mem_cons.2 ⟨?_, fun s hs => ?_⟩⟩
  · exact Nat.lt_of_lt_of_le hstart (h.2 s hs).1
  · exact ⟨Nat.le_refl _, hstop⟩
  · have hs := h.2 s hs
    exact ⟨by omega, hs.2⟩

/-- No two tokens stand at the same position. -/
theorem Between.index_unique (h : Between start stop ts) {i j : Nat} (hi : i < ts.length)
    (hj : j < ts.length) (hsame : ts[i].position = ts[j].position) : i = j := by
  have hlt := List.pairwise_iff_getElem.1 h.1
  rcases Nat.lt_trichotomy i j with hij | hij | hij
  · have := hlt i j hi hj hij
    omega
  · exact hij
  · have := hlt j i hj hi hij
    omega

/-- What cannot be a token stands within the text. -/
theorem position_of_lexFrom {cs : List CodePoint} {error : Error} (h : lexFrom start cs = .error error) :
    start ≤ error.position ∧ error.position < start + cs.length := by
  fun_induction lexFrom start cs generalizing error with
  | case1 => cases h
  | case2 start c rest hblank ih =>
    have := ih h
    rw [List.length_cons]
    omega
  | case3 start c rest hblank fault hfault =>
    cases h
    simp
  | case4 start c rest hblank kind value after htoken hlength e hrest ih =>
    cases h
    have := ih hrest
    rw [List.length_cons]
    omega
  | case5 => cases h

/-- The tokens of a text stand within the text. -/
theorem between_of_lexFrom {cs : List CodePoint} (h : lexFrom start cs = .ok ts) :
    Between start (start + cs.length) ts := by
  fun_induction lexFrom start cs generalizing ts with
  | case1 =>
    cases h
    exact between_nil
  | case2 start c rest hblank ih =>
    have hrest := (ih h).mono (Nat.le_succ start)
    rwa [Nat.add_right_comm] at hrest
  | case3 => cases h
  | case4 => cases h
  | case5 start c rest hblank kind value after htoken hlength ts' hrest ih =>
    cases h
    have hstop : start + (rest.length + 1 - after.length) + after.length
        = start + (c :: rest).length := by
      rw [List.length_cons]
      omega
    have hafter := ih hrest
    rw [hstop] at hafter
    refine Between.cons (t := ⟨kind, Text.ofList value, start⟩) hafter ?_ ?_
    · show start < start + (rest.length + 1 - after.length)
      omega
    · show start < start + (c :: rest).length
      rw [List.length_cons]
      omega

end FeatureToggles.RuleText
