import Mathlib.Algebra.BigOperators.Group.List.Lemmas
import Mathlib.Algebra.GroupWithZero.Nat

/-!
# First occurrences

`List.eraseDups` keeps of each element the first occurrence. An element at the end is kept if it is
new, so a list that grows at its end keeps what it kept before.
-/

namespace FeatureToggles

variable {α β : Type} [DecidableEq α]

/-- An element at the end is kept if it did not occur before. -/
theorem eraseDups_concat (xs : List α) (x : α) :
    (xs ++ [x]).eraseDups = if x ∈ xs then xs.eraseDups else xs.eraseDups ++ [x] := by
  rw [List.eraseDups_append]
  by_cases h : x ∈ xs
  · simp [List.removeAll, h]
  · have hkept : [x].removeAll xs = [x] := by simp [List.removeAll, h]
    rw [if_neg h, hkept]
    rfl

/-- Adding an element that is new to the first occurrences so far keeps them first occurrences. -/
theorem ite_mem_eraseDups (xs : List α) (x : α) :
    (if x ∈ xs.eraseDups then xs.eraseDups else xs.eraseDups ++ [x]) = (xs ++ [x]).eraseDups := by
  rw [eraseDups_concat]
  simp only [List.mem_eraseDups]

/-- Elements that are added one by one if they are new. -/
theorem foldl_ite_mem (xs ys : List α) :
    ys.foldl (fun found y => if y ∈ found then found else found ++ [y]) xs.eraseDups
      = (xs ++ ys).eraseDups := by
  induction ys generalizing xs with
  | nil => rw [List.foldl_nil, List.append_nil]
  | cons y ys ih => rw [List.foldl_cons, ite_mem_eraseDups, ih, List.append_assoc, List.singleton_append]

/-- Elements that were dropped before are not first occurrences behind other elements either. -/
theorem eraseDups_append_eraseDups (xs ys : List α) :
    (xs ++ ys.eraseDups).eraseDups = (xs ++ ys).eraseDups := by
  induction ys using List.reverseRecOn with
  | nil => rfl
  | append_singleton ys y ih =>
    rw [eraseDups_concat, ← List.append_assoc, eraseDups_concat, ← ih]
    by_cases hy : y ∈ ys
    · rw [if_pos hy, if_pos (List.mem_append_right _ hy)]
    · rw [if_neg hy, ← List.append_assoc, eraseDups_concat]
      simp only [List.mem_append, List.mem_eraseDups]

theorem nodup_eraseDups (xs : List α) : xs.eraseDups.Nodup := by
  induction xs using List.reverseRecOn with
  | nil => exact List.nodup_nil
  | append_singleton xs x ih =>
    rw [eraseDups_concat]
    split
    · exact ih
    · next h =>
      have hnew : x ∉ xs.eraseDups := by rwa [List.mem_eraseDups]
      exact List.concat_eq_append ▸ ih.concat hnew

theorem eraseDups_perm_dedup (xs : List α) : xs.eraseDups.Perm xs.dedup := by
  rw [List.perm_ext_iff_of_nodup (nodup_eraseDups xs) xs.nodup_dedup]
  intro x
  rw [List.mem_eraseDups, List.mem_dedup]

/-- Grouping a list by a key loses nothing and counts nothing twice. -/
theorem sum_length_filter_eraseDups (xs : List β) (key : β → α) :
    ((xs.map key).eraseDups.map fun k => (xs.filter (key · = k)).length).sum = xs.length := by
  have hgroup : ∀ k, (xs.filter (key · = k)).length = (xs.map key).count k := by
    intro k
    rw [List.count, List.countP_map, List.countP_eq_length_filter]
    rfl
  calc ((xs.map key).eraseDups.map fun k => (xs.filter (key · = k)).length).sum
      = ((xs.map key).eraseDups.map ((xs.map key).count ·)).sum := by simp only [hgroup]
    _ = ((xs.map key).dedup.map ((xs.map key).count ·)).sum :=
        ((eraseDups_perm_dedup _).map _).sum_eq
    _ = (xs.map key).length := List.sum_map_count_dedup_eq_length _
    _ = xs.length := List.length_map _

end FeatureToggles
