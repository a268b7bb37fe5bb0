import FeatureToggles.Text.Basic

/-!
# Runs of characters

The characters of a class at the front of a text, and what follows them.
-/

namespace FeatureToggles.Text

variable {inside : CodePoint → Bool} {cs rest : List CodePoint}

theorem length_takeWhile_add_dropWhile (inside : CodePoint → Bool) (cs : List CodePoint) :
    (cs.takeWhile inside).length + (cs.dropWhile inside).length = cs.length := by
  rw [← List.length_append, List.takeWhile_append_dropWhile]

/-- A run ends where a character of another class follows. -/
theorem span_append (hcs : ∀ c ∈ cs, inside c = true) (hrest : ∀ c ∈ rest.head?, inside c = false) :
    (cs ++ rest).takeWhile inside = cs ∧ (cs ++ rest).dropWhile inside = rest := by
  rw [List.takeWhile_append_of_pos hcs, List.dropWhile_append_of_pos hcs]
  cases rest with
  | nil => simp
  | cons c rest =>
    have hc : inside c = false := hrest c rfl
    simp [hc]

theorem head?_dropWhile_spec (inside : CodePoint → Bool) (cs : List CodePoint) :
    ∀ c ∈ (cs.dropWhile inside).head?, inside c = false := by
  intro c hc
  have hnot := List.head?_dropWhile_not inside cs
  rw [Option.mem_def.1 hc] at hnot
  simpa using hnot

end FeatureToggles.Text
