/-!
# Ordered maps

Values by key, in the order in which the keys came in. A key that gets a new value keeps its place; one
that is erased and given again moves to the end.
-/

namespace FeatureToggles

/-- Values by key, in the order in which the keys came in. -/
structure OrderedMap (κ ν : Type) where
  entries : List (κ × ν)

namespace OrderedMap

variable {κ ν : Type} [DecidableEq κ]

/-- The map without keys. -/
def empty : OrderedMap κ ν := ⟨[]⟩

/-- The keys, in order. -/
def keys (m : OrderedMap κ ν) : List κ :=
  m.entries.map (·.1)

/-- The values, in the order of their keys. -/
def values (m : OrderedMap κ ν) : List ν :=
  m.entries.map (·.2)

/-- How many keys have a value. -/
def size (m : OrderedMap κ ν) : Nat :=
  m.entries.length

/-- The value of a key. -/
def get? (m : OrderedMap κ ν) (k : κ) : Option ν :=
  (m.entries.find? (·.1 = k)).map (·.2)

/-- Whether a key has a value. -/
def contains (m : OrderedMap κ ν) (k : κ) : Bool :=
  m.keys.any (· = k)

/-- Gives a key the value that `step` makes of its value so far, in its place; one without a value so far
comes to the end. -/
def alterEntries (k : κ) (step : Option ν → ν) : List (κ × ν) → List (κ × ν)
  | [] => [(k, step none)]
  | (key, value) :: rest =>
    if key = k then (key, step (some value)) :: rest else (key, value) :: alterEntries k step rest

@[inherit_doc alterEntries] def alter (m : OrderedMap κ ν) (k : κ) (step : Option ν → ν) :
    OrderedMap κ ν :=
  ⟨alterEntries k step m.entries⟩

/-- Gives a key a value, in its place or else at the end. -/
def insert (m : OrderedMap κ ν) (k : κ) (v : ν) : OrderedMap κ ν :=
  m.alter k fun _ => v

/-- Takes a key and its value out. -/
def erase (m : OrderedMap κ ν) (k : κ) : OrderedMap κ ν :=
  ⟨m.entries.filter (·.1 ≠ k)⟩

theorem get?_alter_self (m : OrderedMap κ ν) (k : κ) (step : Option ν → ν) :
    (m.alter k step).get? k = some (step (m.get? k)) := by
  obtain ⟨entries⟩ := m
  simp only [alter, get?]
  induction entries with
  | nil => simp [alterEntries]
  | cons head rest ih =>
    by_cases h : head.1 = k
    · simp [alterEntries, h]
    · simpa [alterEntries, h] using ih

theorem get?_alter_of_ne (m : OrderedMap κ ν) {k other : κ} (step : Option ν → ν) (h : other ≠ k) :
    (m.alter k step).get? other = m.get? other := by
  obtain ⟨entries⟩ := m
  simp only [alter, get?]
  induction entries with
  | nil => simp [alterEntries, h.symm]
  | cons head rest ih =>
    by_cases hk : head.1 = k
    · simp [alterEntries, hk, h.symm]
    · by_cases ho : head.1 = other
      · subst ho
        simp [alterEntries, h]
      · simpa [alterEntries, hk, ho] using ih

/-- A key keeps its place, and a new one comes last. -/
theorem keys_alter (m : OrderedMap κ ν) (k : κ) (step : Option ν → ν) :
    (m.alter k step).keys = if k ∈ m.keys then m.keys else m.keys ++ [k] := by
  obtain ⟨entries⟩ := m
  simp only [alter, keys]
  induction entries with
  | nil => simp [alterEntries]
  | cons head rest ih =>
    by_cases h : head.1 = k
    · simp [alterEntries, h]
    · have h' : k ≠ head.1 := fun e => h e.symm
      by_cases hm : k ∈ rest.map (·.1)
      · simp only [hm, if_true] at ih
        simp [alterEntries, h, ih, hm]
      · simp only [hm, if_false] at ih
        simp [alterEntries, h, h', ih, hm]

/-- The other keys stay in order. -/
theorem keys_erase (m : OrderedMap κ ν) (k : κ) : (m.erase k).keys = m.keys.filter (· ≠ k) := by
  obtain ⟨entries⟩ := m
  simp [erase, keys, List.filter_map, Function.comp_def]

theorem get?_insert (m : OrderedMap κ ν) (k other : κ) (v : ν) :
    (m.insert k v).get? other = if other = k then some v else m.get? other := by
  by_cases h : other = k
  · rw [if_pos h, h, insert, get?_alter_self]
  · rw [if_neg h, insert, get?_alter_of_ne m _ h]

theorem get?_erase (m : OrderedMap κ ν) (k other : κ) :
    (m.erase k).get? other = if other = k then none else m.get? other := by
  simp only [erase, get?, List.find?_filter]
  by_cases h : other = k
  · -- an entry with this key is not kept
    have hnone : m.entries.find? (fun entry => decide (decide (entry.1 ≠ k) = true ∧
        decide (entry.1 = other) = true)) = none := by
      rw [List.find?_eq_none]
      intro entry _
      simp [h]
    rw [if_pos h, hnone, Option.map_none]
  · rw [if_neg h]
    congr 2
    funext entry
    apply decide_eq_decide.2
    simp only [decide_eq_true_eq]
    exact ⟨And.right, fun hentry => ⟨hentry ▸ h, hentry⟩⟩

/-- The keys are those that have a value. -/
theorem mem_keys_iff (m : OrderedMap κ ν) (k : κ) : k ∈ m.keys ↔ (m.get? k).isSome = true := by
  simp [keys, get?, List.find?_isSome]

theorem contains_eq (m : OrderedMap κ ν) (k : κ) : m.contains k = (m.get? k).isSome := by
  rw [Bool.eq_iff_iff, ← mem_keys_iff, contains]
  simp

theorem nodup_keys_insert {m : OrderedMap κ ν} (h : m.keys.Nodup) (k : κ) (v : ν) :
    (m.insert k v).keys.Nodup := by
  rw [insert, keys_alter]
  split
  · exact h
  · next hk =>
    rw [List.nodup_append]
    refine ⟨h, by simp, fun a ha b hb => ?_⟩
    rw [List.mem_singleton.1 hb]
    exact fun hab => hk (hab ▸ ha)

theorem nodup_keys_erase {m : OrderedMap κ ν} (h : m.keys.Nodup) (k : κ) :
    (m.erase k).keys.Nodup := by
  rw [keys_erase]
  exact h.filter _

/-- As long as no key occurs twice, every entry is the one that is found under its key. -/
theorem get?_of_mem {m : OrderedMap κ ν} (h : m.keys.Nodup) {entry : κ × ν}
    (hentry : entry ∈ m.entries) : m.get? entry.1 = some entry.2 := by
  obtain ⟨entries⟩ := m
  simp only [keys, get?] at h hentry ⊢
  induction entries with
  | nil => cases hentry
  | cons head rest ih =>
    rw [List.map_cons, List.nodup_cons] at h
    rcases List.mem_cons.1 hentry with rfl | hrest
    · simp
    · have hne : head.1 ≠ entry.1 := fun e => h.1 (e ▸ List.mem_map_of_mem hrest)
      rw [List.find?_cons_of_neg (by simpa using hne)]
      exact ih h.2 hrest

/-- As long as no key occurs twice, the values are those of the keys. -/
theorem values_eq_filterMap {m : OrderedMap κ ν} (h : m.keys.Nodup) :
    m.values = m.keys.filterMap m.get? := by
  have hall : ∀ entry ∈ m.entries, m.get? entry.1 = some entry.2 := fun _ => get?_of_mem h
  rw [values, keys]
  generalize m.entries = entries at hall ⊢
  induction entries with
  | nil => rfl
  | cons head rest ih =>
    obtain ⟨hhead, hrest⟩ := List.forall_mem_cons.1 hall
    rw [List.map_cons, List.map_cons, List.filterMap_cons, hhead, ih hrest]

end OrderedMap

end FeatureToggles
