import FeatureToggles.Proofs.UuidNumerals
import Mathlib.Data.List.Induction

/-!
# Spellings of identifiers

An identifier has one written form: thirty-two lower-case digits in five groups. It is read back from this
form, and as well from its digits in either case with hyphens anywhere, behind `urn:uuid:` and in braces.
-/

namespace FeatureToggles

open CodePoint (char)

/-! ### Hexadecimal digits -/

namespace Text

/-- The digits that numbers are written with. -/
def hexDigits : List CodePoint :=
  ("0123456789abcdef" : Text).toList

theorem hexDigit_mem {n : ℕ} (h : n < 16) : hexDigit n ∈ hexDigits := by
  have hall : ∀ n : Fin 16, hexDigit n.val ∈ hexDigits := by decide
  exact hall ⟨n, h⟩

theorem mem_hexDigits_of_mem_hexFixed {width n : ℕ} {c : CodePoint} (h : c ∈ hexFixed width n) :
    c ∈ hexDigits := by
  induction width generalizing n with
  | zero => cases h
  | succ width ih =>
    rw [hexFixed, List.mem_append, List.mem_singleton] at h
    cases h with
    | inl hbefore => exact ih hbefore
    | inr hlast =>
      rw [hlast]
      exact hexDigit_mem (Nat.mod_lt n (by decide))

/-- A written digit is that of its value. -/
theorem hexDigit_of_mem {c : CodePoint} (h : c ∈ hexDigits) :
    ∃ d < 16, hexValue? c = some d ∧ hexDigit d = c := by
  have hall : hexDigits.all
      (fun c => decide (∃ d : ℕ, d < 16 ∧ hexValue? c = some d ∧ hexDigit d = c)) = true := by decide
  exact of_decide_eq_true (List.all_eq_true.1 hall c h)

theorem hexNumber?_concat (ds : List CodePoint) (c : CodePoint) :
    hexNumber? (ds ++ [c]) = (hexNumber? ds).bind fun n => (hexValue? c).map (16 * n + ·) := by
  simp only [hexNumber?, List.foldlM_append, List.foldlM_cons, List.foldlM_nil, Option.bind_eq_bind,
    Option.pure_def, Option.bind_fun_some]

theorem exists_hexNumber? {ds : List CodePoint} (hds : ∀ c ∈ ds, c ∈ hexDigits) :
    ∃ n, hexNumber? ds = some n := by
  induction ds using List.reverseRecOn with
  | nil => exact ⟨0, rfl⟩
  | append_singleton ds c ih =>
    rw [List.forall_mem_append, List.forall_mem_singleton] at hds
    obtain ⟨n, hn⟩ := ih hds.1
    obtain ⟨d, -, hvalue, -⟩ := hexDigit_of_mem hds.2
    exact ⟨16 * n + d, by rw [hexNumber?_concat, hn, hvalue, Option.bind_some, Option.map_some]⟩

/-- Written digits are those of their number. -/
theorem hexFixed_of_hexNumber? {ds : List CodePoint} (hds : ∀ c ∈ ds, c ∈ hexDigits) {n : ℕ}
    (h : hexNumber? ds = some n) : hexFixed ds.length n = ds := by
  induction ds using List.reverseRecOn generalizing n with
  | nil => rfl
  | append_singleton ds c ih =>
    rw [List.forall_mem_append, List.forall_mem_singleton] at hds
    obtain ⟨d, hd, hvalue, hdigit⟩ := hexDigit_of_mem hds.2
    rw [hexNumber?_concat, hvalue, Option.bind_eq_some_iff] at h
    obtain ⟨m, hm, h⟩ := h
    cases h
    have hquotient : (16 * m + d) / 16 = m := by omega
    have hremainder : (16 * m + d) % 16 = d := by omega
    rw [List.length_append, List.length_singleton, hexFixed, hquotient, hremainder, ih hds.1 hm, hdigit]

/-- The case of a digit does not matter. -/
theorem hexValue?_toLower (c : CodePoint) : hexValue? c.toLower = hexValue? c := by
  by_cases hupper : 'A' ≤ c ∧ c ≤ 'Z'
  · have hall : ∀ k : Fin 26,
        hexValue? (CodePoint.ofNat (65 + k.val)).toLower = hexValue? (CodePoint.ofNat (65 + k.val)) := by
      decide
    have hlow : 65 ≤ c.toNat := hupper.1
    have hhigh : c.toNat ≤ 90 := hupper.2
    have hc := hall ⟨c.toNat - 65, by omega⟩
    rwa [Nat.add_sub_cancel' hlow, CodePoint.ofNat_toNat] at hc
  · have hself : c.toLower = c := by
      cases c with
      | char c => exact congrArg char (dif_neg hupper)
      | surrogate n => rfl
    rw [hself]

theorem hexNumber?_toLower (ds : List CodePoint) : hexNumber? (ds.map CodePoint.toLower) = hexNumber? ds := by
  unfold hexNumber?
  rw [List.foldlM_map]
  simp only [hexValue?_toLower]

end Text

namespace Uuid

/-! ### The written form -/

/-- Whether characters are grouped as those of an identifier are: lower-case digits in groups of 8, 4, 4, 4 and
12, with hyphens between the groups. -/
def IsGrouped (cs : List CodePoint) : Prop :=
  ∃ groups : List (List CodePoint), groups.map List.length = [8, 4, 4, 4, 12] ∧
    (∀ group ∈ groups, ∀ c ∈ group, c ∈ Text.hexDigits) ∧ cs = List.intercalate [char '-'] groups

theorem hyphen_notMem_hexDigits : char '-' ∉ Text.hexDigits := by
  decide

/-- What is left of groups without the hyphens between them. -/
theorem filter_intercalate {groups : List (List CodePoint)} (h : ∀ group ∈ groups, char '-' ∉ group) :
    (List.intercalate [char '-'] groups).filter (· ≠ char '-') = groups.flatten := by
  have hgroup {group : List CodePoint} (hgroup : char '-' ∉ group) : group.filter (· ≠ char '-') = group := by
    rw [List.filter_eq_self]
    intro c hc
    rw [decide_eq_true_iff]
    rintro rfl
    exact hgroup hc
  induction groups with
  | nil => rfl
  | cons group rest ih =>
    obtain ⟨hfirst, hrest⟩ := List.forall_mem_cons.1 h
    cases rest with
    | nil => rw [List.intercalate_singleton, hgroup hfirst, List.flatten_singleton]
    | cons next later =>
      rw [List.intercalate_cons_cons, List.filter_append, List.filter_append, hgroup hfirst, ih hrest,
        List.flatten_cons]
      simp

/-- There is one hyphen less than groups. -/
theorem length_intercalate {groups : List (List CodePoint)} (h : groups ≠ []) :
    (List.intercalate [char '-'] groups).length + 1 = (groups.map List.length).sum + groups.length := by
  induction groups with
  | nil => exact absurd rfl h
  | cons group rest ih =>
    cases rest with
    | nil => simp [List.intercalate_singleton]
    | cons next later =>
      have hrest := ih (List.cons_ne_nil _ _)
      rw [List.intercalate_cons_cons, List.map_cons, List.sum_cons, List.length_append, List.length_append,
        List.length_singleton, List.length_cons]
      omega

theorem flatten_cut (sizes : List ℕ) (cs : List CodePoint) : (cut sizes cs).flatten = cs.take sizes.sum := by
  induction sizes generalizing cs with
  | nil => simp [cut]
  | cons size sizes ih => rw [cut, List.flatten_cons, ih, List.sum_cons, List.take_add]

theorem map_length_cut {sizes : List ℕ} {cs : List CodePoint} (h : sizes.sum ≤ cs.length) :
    (cut sizes cs).map List.length = sizes := by
  induction sizes generalizing cs with
  | nil => rfl
  | cons size sizes ih =>
    rw [List.sum_cons] at h
    rw [cut, List.map_cons, List.length_take, Nat.min_eq_left (by omega), ih]
    rw [List.length_drop]
    omega

theorem cut_flatten (groups : List (List CodePoint)) :
    cut (groups.map List.length) groups.flatten = groups := by
  induction groups with
  | nil => rfl
  | cons group groups ih => rw [List.map_cons, List.flatten_cons, cut, List.take_left, List.drop_left, ih]

/-- The groups of an identifier, put together, are its digits. -/
theorem flatten_groups (id : Uuid) :
    (cut groupSizes (Text.hexFixed 32 id.number)).flatten = Text.hexFixed 32 id.number := by
  rw [flatten_cut]
  apply List.take_of_length_le
  rw [Text.length_hexFixed]
  decide

theorem mem_hexDigits_of_mem_groups {id : Uuid} :
    ∀ group ∈ cut groupSizes (Text.hexFixed 32 id.number), ∀ c ∈ group, c ∈ Text.hexDigits := by
  intro group hgroup c hc
  have hmem := List.mem_flatten_of_mem hgroup hc
  rw [flatten_groups] at hmem
  exact Text.mem_hexDigits_of_mem_hexFixed hmem

theorem isGrouped_chars (id : Uuid) : IsGrouped id.chars := by
  refine ⟨_, map_length_cut ?_, mem_hexDigits_of_mem_groups, rfl⟩
  rw [Text.length_hexFixed]
  decide

/-- The written form without its hyphens. -/
theorem filter_chars (id : Uuid) : id.chars.filter (· ≠ char '-') = Text.hexFixed 32 id.number := by
  have hhyphen : ∀ group ∈ cut groupSizes (Text.hexFixed 32 id.number), char '-' ∉ group := by
    intro group hgroup hmem
    exact hyphen_notMem_hexDigits (mem_hexDigits_of_mem_groups group hgroup _ hmem)
  rw [chars, filter_intercalate hhyphen, flatten_groups]

theorem IsGrouped.length {cs : List CodePoint} (h : IsGrouped cs) : cs.length = 36 := by
  obtain ⟨groups, hlengths, -, rfl⟩ := h
  have hcount : groups.length = 5 := by
    rw [← List.length_map List.length, hlengths]
    rfl
  have hne : groups ≠ [] := by
    rintro rfl
    cases hcount
  have hlength := length_intercalate hne
  rw [hlengths, hcount] at hlength
  exact Nat.succ.inj hlength

/-! ### Reading digits -/

/-- Hexadecimal digits are a run of digits with the same number. -/
theorem exists_isDigitRun {cs : List CodePoint} {start n : ℕ} (hne : cs ≠ [])
    (h : cs.foldlM (fun n c => (Text.hexValue? c).map (16 * n + ·)) start = some n) :
    ∃ ds : List ℕ, Text.IsDigitRun digitValue? cs ds ∧ ds.foldl (fun n d => 16 * n + d) start = n := by
  induction cs generalizing start with
  | nil => exact absurd rfl hne
  | cons c rest ih =>
    rw [List.foldlM_cons] at h
    obtain ⟨next, hnext, hrest⟩ := Option.bind_eq_some_iff.1 h
    obtain ⟨d, hvalue, rfl⟩ := Option.map_eq_some_iff.1 hnext
    have hd : digitValue? c = some d := by
      rw [digitValue?, hvalue, Option.some_or]
    cases rest with
    | nil =>
      cases hrest
      exact ⟨[d], .one hd, rfl⟩
    | cons second rest =>
      obtain ⟨ds, hrun, hds⟩ := ih (List.cons_ne_nil _ _) hrest
      exact ⟨d :: ds, .next hd hrun, hds⟩

theorem number?_of_hexNumber? {cs : List CodePoint} {n : ℕ} (hlength : cs.length = 32)
    (h : Text.hexNumber? cs = some n) : number? cs = some n := by
  have hne : cs ≠ [] := by
    rintro rfl
    cases hlength
  obtain ⟨ds, hrun, rfl⟩ := exists_isDigitRun hne h
  have hnumeral := IsNumeral.mk (List.forall_mem_nil _) (.inl rfl) .absent hrun
    (List.forall_mem_nil _)
  rw [List.append_nil] at hnumeral
  exact number?_eq_some_iff.2 ⟨hlength, hnumeral⟩

/-! ### Spellings -/

/-- Spellings of an identifier: its written form with digits in either case and hyphens anywhere, behind
`urn:uuid:` or in braces. -/
inductive Spells (id : Uuid) : List CodePoint → Prop
  | digits {cs : List CodePoint}
    (hdigits : (cs.filter (· ≠ char '-')).map CodePoint.toLower = id.chars.filter (· ≠ char '-')) : Spells id cs
  | labelled {cs : List CodePoint} (hcs : Spells id cs) : Spells id (("urn:uuid:" : Text).toList ++ cs)
  | braced {cs : List CodePoint} (hcs : Spells id cs) : Spells id (char '\x7b' :: (cs ++ [char '\x7d']))

/-- A spelling without its labels. -/
def unlabelled (cs : List CodePoint) : List CodePoint :=
  Text.without ("uuid:" : Text).toList (Text.without ("urn:" : Text).toList cs)

theorem unlabelled_label (cs : List CodePoint) :
    unlabelled (("urn:uuid:" : Text).toList ++ cs) = unlabelled cs := by
  have hlabel : ("urn:uuid:" : Text).toList = ("urn:" : Text).toList ++ ("uuid:" : Text).toList := by decide
  have hkept : Text.without ("urn:" : Text).toList (("uuid:" : Text).toList ++ cs)
      = ("uuid:" : Text).toList ++ Text.without ("urn:" : Text).toList cs := by
    show Text.without [char 'u', 'r', 'n', ':'] (char 'u' :: char 'u' :: char 'i' :: char 'd' :: char ':' :: cs)
      = char 'u' :: char 'u' :: char 'i' :: char 'd' :: char ':' :: Text.without [char 'u', 'r', 'n', ':'] cs
    rw [Text.without_cons rfl, Text.without_cons rfl, Text.without_cons rfl, Text.without_cons rfl,
      Text.without_cons rfl]
  unfold unlabelled
  rw [hlabel, List.append_assoc, Text.without_append (by decide), hkept, Text.without_append (by decide)]

theorem unlabelled_braced (cs : List CodePoint) :
    unlabelled (char '\x7b' :: (cs ++ [char '\x7d'])) = char '\x7b' :: (unlabelled cs ++ [char '\x7d']) := by
  unfold unlabelled
  rw [Text.without_cons rfl, Text.without_concat (by decide) (by decide), Text.without_cons rfl,
    Text.without_concat (by decide) (by decide)]

theorem unlabelled_eq_self {cs : List CodePoint} (h : char 'u' ∉ cs) : unlabelled cs = cs := by
  show Text.without [char 'u', 'u', 'i', 'd', ':'] (Text.without [char 'u', 'r', 'n', ':'] cs) = cs
  rw [Text.without_eq_self h, Text.without_eq_self h]

theorem isBrace_of_notMem {cs : List CodePoint} (hopen : char '\x7b' ∉ cs) (hclose : char '\x7d' ∉ cs) :
    ∀ c ∈ cs, isBrace c = false := by
  intro c hc
  rw [isBrace, Bool.or_eq_false_iff, decide_eq_false_iff_not, decide_eq_false_iff_not]
  exact ⟨fun heq => hopen (heq ▸ hc), fun heq => hclose (heq ▸ hc)⟩

/-- Nothing is taken out of a text where no label starts and that has no braces and hyphens. -/
theorem bare_eq_self {cs : List CodePoint} (hlabel : char 'u' ∉ cs) (hopen : char '\x7b' ∉ cs)
    (hclose : char '\x7d' ∉ cs) (hhyphen : char '-' ∉ cs) : bare cs = cs := by
  show (Text.trim isBrace (unlabelled cs)).filter (· ≠ char '-') = cs
  rw [unlabelled_eq_self hlabel, Text.trim_eq_self (isBrace_of_notMem hopen hclose), List.filter_eq_self]
  intro c hc
  exact decide_eq_true fun heq => hhyphen (heq ▸ hc)

/-- Digits in either case and hyphens start no label and are no braces. -/
theorem digits_spec {id : Uuid} {cs : List CodePoint}
    (h : (cs.filter (· ≠ char '-')).map CodePoint.toLower = id.chars.filter (· ≠ char '-')) :
    char 'u' ∉ cs ∧ ∀ c ∈ cs, isBrace c = false := by
  have hdigits : ∀ c ∈ cs, c = char '-' ∨ c.toLower ∈ Text.hexDigits := by
    intro c hc
    by_cases hhyphen : c = char '-'
    · exact .inl hhyphen
    · have hmem : c.toLower ∈ (cs.filter (· ≠ char '-')).map CodePoint.toLower := by
        apply List.mem_map_of_mem
        rw [List.mem_filter]
        exact ⟨hc, decide_eq_true hhyphen⟩
      rw [h, filter_chars] at hmem
      exact .inr (Text.mem_hexDigits_of_mem_hexFixed hmem)
  have hother : ∀ c, c = char 'u' ∨ c = char '\x7b' ∨ c = char '\x7d' → c ∉ cs := by
    intro c hc hmem
    rcases hc with rfl | rfl | rfl <;> exact absurd (hdigits _ hmem) (by decide)
  exact ⟨hother _ (.inl rfl), isBrace_of_notMem (hother _ (.inr (.inl rfl))) (hother _ (.inr (.inr rfl)))⟩

/-- Without its labels a spelling has its digits between braces. -/
theorem Spells.exists_enclosed {id : Uuid} {cs : List CodePoint} (h : Spells id cs) :
    ∃ before inner after, (∀ c ∈ before, isBrace c = true) ∧ (∀ c ∈ after, isBrace c = true) ∧
      unlabelled cs = before ++ inner ++ after ∧
      (inner.filter (· ≠ char '-')).map CodePoint.toLower = id.chars.filter (· ≠ char '-') := by
  induction h with
  | @digits cs hdigits =>
    refine ⟨[], cs, [], ?_, ?_, ?_, hdigits⟩
    · exact List.forall_mem_nil _
    · exact List.forall_mem_nil _
    · rw [unlabelled_eq_self (digits_spec hdigits).1, List.nil_append, List.append_nil]
  | @labelled cs _ ih =>
    rw [unlabelled_label]
    exact ih
  | @braced cs _ ih =>
    obtain ⟨before, inner, after, hbefore, hafter, hcs, hinner⟩ := ih
    refine ⟨char '\x7b' :: before, inner, after ++ [char '\x7d'], ?_, ?_, ?_, hinner⟩
    · exact List.forall_mem_cons.2 ⟨rfl, hbefore⟩
    · exact List.forall_mem_append.2 ⟨hafter, List.forall_mem_singleton.2 rfl⟩
    · rw [unlabelled_braced, hcs, List.cons_append, List.cons_append, List.append_assoc (before ++ inner)]

/-- A spelling stands for the digits of the written form, in either case. -/
theorem Spells.map_toLower_bare {id : Uuid} {cs : List CodePoint} (h : Spells id cs) :
    (bare cs).map CodePoint.toLower = Text.hexFixed 32 id.number := by
  obtain ⟨before, inner, after, hbefore, hafter, hcs, hinner⟩ := h.exists_enclosed
  show ((Text.trim isBrace (unlabelled cs)).filter (· ≠ char '-')).map CodePoint.toLower = _
  rw [hcs, Text.trim_enclosed hbefore (digits_spec hinner).2 hafter, hinner, filter_chars]

theorem ofChars?_of_spells {id : Uuid} {cs : List CodePoint} (h : Spells id cs) : ofChars? cs = some id := by
  have hdigits := h.map_toLower_bare
  have hlength : (bare cs).length = 32 := by
    rw [← List.length_map CodePoint.toLower, hdigits, Text.length_hexFixed]
  have hbound : id.number < Nat.pow 16 32 := id.number_lt
  have hnumber : Text.hexNumber? (bare cs) = some id.number := by
    rw [← Text.hexNumber?_toLower, hdigits, Text.hexNumber?_hexFixed hbound]
  exact ofChars?_eq_some_iff.2 (number?_eq_some_iff.1 (number?_of_hexNumber? hlength hnumber))

/-- The written form is a spelling. -/
theorem spells_chars (id : Uuid) : Spells id id.chars := by
  have hlower : Text.hexDigits.all (fun c => c.toLower = c) = true := by decide
  have hwritten : (Text.hexFixed 32 id.number).map CodePoint.toLower
      = (Text.hexFixed 32 id.number).map fun c => c := by
    apply List.map_congr_left
    intro c hc
    exact of_decide_eq_true (List.all_eq_true.1 hlower c (Text.mem_hexDigits_of_mem_hexFixed hc))
  apply Spells.digits
  rw [filter_chars, hwritten, List.map_id']

/-- The written forms are all that is grouped as they are. -/
theorem exists_eq_chars_of_isGrouped {cs : List CodePoint} (h : IsGrouped cs) : ∃ id : Uuid, cs = id.chars := by
  obtain ⟨groups, hlengths, hdigits, rfl⟩ := h
  have hall : ∀ c ∈ groups.flatten, c ∈ Text.hexDigits := by
    intro c hc
    obtain ⟨group, hgroup, hmem⟩ := List.mem_flatten.1 hc
    exact hdigits group hgroup c hmem
  have hlength : groups.flatten.length = 32 := by
    rw [List.length_flatten, hlengths]
    rfl
  obtain ⟨n, hn⟩ := Text.exists_hexNumber? hall
  have hwritten := Text.hexFixed_of_hexNumber? hall hn
  rw [hlength] at hwritten
  refine ⟨⟨n, lt_of_number? (number?_of_hexNumber? hlength hn)⟩, ?_⟩
  rw [chars, hwritten, groupSizes, ← hlengths, cut_flatten]

end Uuid

end FeatureToggles
