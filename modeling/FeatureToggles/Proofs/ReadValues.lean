import FeatureToggles.Proofs.JsonText

/-!
# Values that are read

What is read from a text keeps to the limits of reading: its integers are short, its objects have no name
twice, and its containers are not nested too deeply.
-/

namespace FeatureToggles.Json

open Decimal (digitValue)
open JsonLibrary (maxNesting)

/-! ### Tokens -/

/-- Whether the value of a token, if it has one, can be written anywhere and read back. -/
def Token.IsStorable : Token → Prop
  | .scalar value => ∀ k, Storable k value
  | _ => True

theorem digitValue_lt_ten {c : CodePoint} (h : c.isDigit = true) : digitValue c < 10 := by
  have hle : c.toNat ≤ '9'.toNat := (CodePoint.isDigit_iff_toNat.1 h).2
  have hnine : '9'.toNat = '0'.toNat + 9 := rfl
  rw [digitValue]
  omega

theorem lt_ten_of_mem_wholeAt (cs : List CodePoint) : ∀ d ∈ (wholeAt cs).1.map digitValue, d < 10 := by
  have hdigits : ∀ c ∈ (wholeAt cs).1, c.isDigit = true := by
    unfold wholeAt
    split
    · intro c hc
      rw [List.mem_singleton.1 hc]
      rfl
    · intro c hc
      exact List.mem_takeWhile_imp hc
  intro d hd
  obtain ⟨c, hc, rfl⟩ := List.mem_map.1 hd
  exact digitValue_lt_ten (hdigits c hc)

theorem isStorable_numberAt (cs : List CodePoint) : (numberAt cs).1.IsStorable := by
  simp only [numberAt]
  split
  · trivial
  · split
    · split
      · next n hn =>
        exact fun k => .int k (Decimal.Numeral.length_digits_toInt? (lt_ten_of_mem_wholeAt _) hn)
      · trivial
    · exact fun k => .float k _

theorem isStorable_wordAt? {cs after : List CodePoint} {value : Json} (h : wordAt? cs = some (value, after))
    (k : ℕ) : Storable k value := by
  obtain ⟨word, hword, h⟩ := List.exists_of_findSome?_eq_some h
  simp only at h
  split at h
  · cases h
    simp only [words, List.mem_cons, List.not_mem_nil, or_false] at hword
    rcases hword with rfl | rfl | rfl | rfl | rfl | rfl
    · exact .null k
    · exact .bool k true
    · exact .bool k false
    · exact .float k .nan
    · exact .float k (.infinity false)
    · exact .float k (.infinity true)
  · cases h

theorem isStorable_tokenAt (c : CodePoint) (rest : List CodePoint) : (tokenAt c rest).1.IsStorable := by
  unfold tokenAt
  -- the six marks come first
  iterate 6
    refine iteInduction (motive := fun found : Token × List CodePoint => found.1.IsStorable)
      (fun _ => trivial) fun _ => ?_
  split
  · split <;> trivial
  · split
    · next hword => exact isStorable_wordAt? hword
    · exact isStorable_numberAt _

theorem isStorable_of_mem_tokens (cs : List CodePoint) : ∀ t ∈ tokens cs, t.IsStorable := by
  fun_induction tokens cs with
  | case1 => exact fun t ht => absurd ht List.not_mem_nil
  | case2 c rest _ ih => exact ih
  | case3 c rest _ ih => exact List.forall_mem_cons.2 ⟨isStorable_tokenAt c rest, ih⟩

/-! ### Containers -/

/-- Whether fields make an object that can be written and read back, if its values may have containers
nested at most `k` deep. -/
structure StorableFields (k : ℕ) (fields : List (Text × Json)) : Prop where
  nodup : (fields.map (·.1)).Nodup
  values : ∀ field ∈ fields, Storable k field.2

theorem StorableFields.nil (k : ℕ) : StorableFields k [] :=
  ⟨List.nodup_nil, fun _ hfield => absurd hfield List.not_mem_nil⟩

theorem mem_withField {name : Text} {value : Json} {fields : List (Text × Json)}
    {field : Text × Json} (h : field ∈ withField name value fields) :
    field = (name, value) ∨ field ∈ fields := by
  induction fields with
  | nil => exact .inl (List.mem_singleton.1 h)
  | cons head rest ih =>
    rw [withField] at h
    split at h
    · rcases List.mem_cons.1 h with rfl | hrest
      · exact .inl rfl
      · exact .inr (List.mem_cons_of_mem _ hrest)
    · rcases List.mem_cons.1 h with rfl | hrest
      · exact .inr (List.mem_cons_self ..)
      · exact (ih hrest).imp_right (List.mem_cons_of_mem _)

/-- A name that is given again does not come in twice. -/
theorem nodup_withField {name : Text} {fields : List (Text × Json)} (value : Json)
    (h : (fields.map (·.1)).Nodup) : ((withField name value fields).map (·.1)).Nodup := by
  induction fields with
  | nil => simp [withField]
  | cons head rest ih =>
    rw [List.map_cons, List.nodup_cons] at h
    rw [withField]
    split
    · next hname =>
      rw [List.map_cons, List.nodup_cons, ← hname]
      exact h
    · next hname =>
      rw [List.map_cons, List.nodup_cons]
      refine ⟨fun hmem => ?_, ih h.2⟩
      obtain ⟨field, hfield, heq⟩ := List.mem_map.1 hmem
      rcases mem_withField hfield with rfl | hrest
      · exact hname heq.symm
      · exact h.1 (List.mem_map.2 ⟨field, hrest, heq⟩)

theorem StorableFields.withField {k : ℕ} {fields : List (Text × Json)} (h : StorableFields k fields)
    (name : Text) {value : Json} (hvalue : Storable k value) :
    StorableFields k (withField name value fields) := by
  refine ⟨nodup_withField value h.nodup, fun field hfield => ?_⟩
  rcases mem_withField hfield with rfl | hbefore
  · exact hvalue
  · exact h.values field hbefore

variable [JsonLibrary]

/-- Whether the open containers hold what can be read back, and leave room for `k` more. -/
inductive Room : ℕ → List Frame → Prop
  | nil : Room maxNesting []
  | array {k : ℕ} {stack : List Frame} {items : List Json} (hstack : Room (k + 1) stack)
    (hitems : ∀ item ∈ items, Storable k item) : Room k (.array items :: stack)
  | object {k : ℕ} {stack : List Frame} {fields : List (Text × Json)} {name : Text}
    (hstack : Room (k + 1) stack) (hfields : StorableFields k fields) :
    Room k (.object fields name :: stack)

theorem Room.add_length {k : ℕ} {stack : List Frame} (h : Room k stack) :
    k + stack.length = maxNesting := by
  induction h with
  | nil => rfl
  | array _ _ ih =>
    rw [List.length_cons]
    omega
  | object _ _ ih =>
    rw [List.length_cons]
    omega

/-- A container may be opened as long as there is room for one. -/
theorem Room.exists_succ {k : ℕ} {stack : List Frame} (h : Room k stack)
    (hlength : stack.length < maxNesting) : ∃ inner, k = inner + 1 := by
  have hsum := h.add_length
  exact ⟨k - 1, by omega⟩

/-- Whether all that has been read can be read back. The object whose field is due is not among the open
containers, but takes part of the room. -/
inductive Fits : State → List Frame → Prop
  | value {k : ℕ} {stack : List Frame} (hstack : Room k stack) : Fits .value stack
  | opened {k : ℕ} {stack : List Frame} (hstack : Room (k + 1) stack) :
    Fits .opened (.array [] :: stack)
  | name {k : ℕ} {stack : List Frame} {fields : List (Text × Json)} (hstack : Room (k + 1) stack)
    (hfields : StorableFields k fields) : Fits (.name fields) stack
  | openedObject {k : ℕ} {stack : List Frame} (hstack : Room (k + 1) stack) :
    Fits .openedObject stack
  | colon {k : ℕ} {stack : List Frame} {fields : List (Text × Json)} {name : Text}
    (hstack : Room (k + 1) stack) (hfields : StorableFields k fields) :
    Fits (.colon fields name) stack
  | complete {k : ℕ} {stack : List Frame} {value : Json} (hstack : Room k stack)
    (hvalue : Storable k value) : Fits (.complete value) stack

/-! ### Reading -/

theorem fits_start {k : ℕ} {stack stack' : List Frame} {state' : State} {t : Token}
    (hstack : Room k stack) (ht : t.IsStorable) (h : start stack t = .ok (state', stack')) :
    Fits state' stack' := by
  cases t with
  | scalar value =>
    cases h
    exact .complete hstack (ht k)
  | string s =>
    cases h
    exact .complete hstack (.string k s)
  | openArray =>
    rw [start] at h
    split at h
    · next hlength =>
      cases h
      obtain ⟨inner, rfl⟩ := hstack.exists_succ hlength
      exact .opened hstack
    · cases h
  | openObject =>
    rw [start] at h
    split at h
    · next hlength =>
      cases h
      obtain ⟨inner, rfl⟩ := hstack.exists_succ hlength
      exact .openedObject hstack
    · cases h
  | _ => cases h

/-- A token leaves what has been read fit to be read back. -/
theorem fits_step {state state' : State} {stack stack' : List Frame} {t : Token}
    (hfits : Fits state stack) (ht : t.IsStorable) (h : step state stack t = .ok (state', stack')) :
    Fits state' stack' := by
  cases hfits with
  | value hstack => exact fits_start hstack ht h
  | @opened k stack hstack =>
    have hroom : Room k (.array [] :: stack) :=
      .array hstack fun _ hitem => absurd hitem List.not_mem_nil
    cases t with
    | closeArray =>
      cases h
      exact .complete hstack (.array fun _ hitem => absurd hitem List.not_mem_nil)
    | _ => exact fits_start hroom ht h
  | name hstack hfields =>
    cases t with
    | string name =>
      cases h
      exact .colon hstack hfields
    | _ => cases h
  | openedObject hstack =>
    cases t with
    | closeObject =>
      cases h
      exact .complete hstack (.object List.nodup_nil (StorableFields.nil _).values)
    | string name =>
      cases h
      exact .colon hstack (.nil _)
    | _ => cases h
  | colon hstack hfields =>
    cases t with
    | colon =>
      cases h
      exact .value (.object hstack hfields)
    | _ => cases h
  | complete hstack hvalue =>
    cases hstack with
    | nil => cases t <;> cases h
    | array hstack hitems =>
      have hall := List.forall_mem_cons.2 ⟨hvalue, hitems⟩
      cases t with
      | comma =>
        cases h
        exact .value (.array hstack hall)
      | closeArray =>
        cases h
        exact .complete hstack (.array fun item hitem => hall item (List.mem_reverse.1 hitem))
      | _ => cases h
    | @object _ _ _ name hstack hfields =>
      have hall := hfields.withField name hvalue
      cases t with
      | comma =>
        cases h
        exact .name hstack hall
      | closeObject =>
        cases h
        exact .complete hstack (.object hall.nodup hall.values)
      | _ => cases h

theorem storable_of_run {state : State} {stack : List Frame} {ts : List Token} {value : Json}
    (hfits : Fits state stack) (hts : ∀ t ∈ ts, t.IsStorable) (h : run state stack ts = .ok value) :
    Storable maxNesting value := by
  induction ts generalizing state stack with
  | nil =>
    cases hfits with
    | complete hstack hvalue =>
      cases hstack with
      | nil =>
        cases h
        exact hvalue
      | _ => cases h
    | _ => cases h
  | cons t ts ih =>
    obtain ⟨ht, hts⟩ := List.forall_mem_cons.1 hts
    rw [run] at h
    split at h
    · next hstep => exact ih (fits_step hfits ht hstep) hts h
    · cases h

/-- What is read has short integers and is not nested too deeply. -/
theorem storable_of_readChars {cs : List CodePoint} {value : Json} (h : readChars cs = .ok value) :
    Storable maxNesting value :=
  storable_of_run (.value .nil) (isStorable_of_mem_tokens cs) h

end FeatureToggles.Json
