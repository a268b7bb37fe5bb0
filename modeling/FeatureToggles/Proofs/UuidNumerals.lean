import FeatureToggles.Uuid
import Mathlib.Algebra.GroupWithZero.Nat

/-!
# Numerals of identifiers

The characters that stand for the number of an identifier are read as a hexadecimal numeral. Of such a numeral
white space may stand on either side; it may have a plus sign and the mark `0x`, digits of any script and
single underscores between digits. Thirty-two characters never stand for a number of more than 128 bits.
-/

namespace FeatureToggles

open CodePoint (char)

open Unicode (apart blankIntervals covers covers_of_apart decimalIntervals decimalValueIn decimalValue?
  increasingFrom isBlank isWhiteSpace)

/-! ### Runs of digits -/

namespace Text

/-- Digits with the given values; single underscores may stand between them. -/
inductive IsDigitRun (value? : CodePoint → Option ℕ) : List CodePoint → List ℕ → Prop
  | one {c : CodePoint} {d : ℕ} (hc : value? c = some d) : IsDigitRun value? [c] [d]
  | next {c : CodePoint} {d : ℕ} {cs : List CodePoint} {ds : List ℕ} (hc : value? c = some d)
    (hrest : IsDigitRun value? cs ds) : IsDigitRun value? (c :: cs) (d :: ds)
  | apart {c : CodePoint} {d : ℕ} {cs : List CodePoint} {ds : List ℕ} (hc : value? c = some d)
    (hrest : IsDigitRun value? cs ds) : IsDigitRun value? (c :: char '_' :: cs) (d :: ds)

variable {value? : CodePoint → Option ℕ} {cs : List CodePoint} {ds : List ℕ}

/-- A run starts with a digit. -/
theorem IsDigitRun.exists_cons (h : IsDigitRun value? cs ds) :
    ∃ c rest d, cs = c :: rest ∧ value? c = some d := by
  cases h with
  | one hc => exact ⟨_, _, _, rfl, hc⟩
  | next hc _ => exact ⟨_, _, _, rfl, hc⟩
  | apart hc _ => exact ⟨_, _, _, rfl, hc⟩

theorem IsDigitRun.mem_cases (h : IsDigitRun value? cs ds) :
    ∀ c ∈ cs, c = char '_' ∨ ∃ d, value? c = some d := by
  induction h with
  | one hc => exact List.forall_mem_singleton.2 (.inr ⟨_, hc⟩)
  | next hc _ ih => exact List.forall_mem_cons.2 ⟨.inr ⟨_, hc⟩, ih⟩
  | apart hc _ ih => exact List.forall_mem_cons.2 ⟨.inr ⟨_, hc⟩, List.forall_mem_cons.2 ⟨.inl rfl, ih⟩⟩

/-- A run has at least as many characters as digits, and each value is that of some character. -/
theorem IsDigitRun.values (h : IsDigitRun value? cs ds) :
    ds.length ≤ cs.length ∧ ∀ d ∈ ds, ∃ c, value? c = some d := by
  induction h with
  | one hc => exact ⟨Nat.le_refl 1, List.forall_mem_singleton.2 ⟨_, hc⟩⟩
  | next hc _ ih => exact ⟨Nat.succ_le_succ ih.1, List.forall_mem_cons.2 ⟨⟨_, hc⟩, ih.2⟩⟩
  | apart hc _ ih =>
    exact ⟨Nat.le_succ_of_le (Nat.succ_le_succ ih.1), List.forall_mem_cons.2 ⟨⟨_, hc⟩, ih.2⟩⟩

theorem digitRun?_eq_some_iff (hunderscore : value? '_' = none) :
    digitRun? value? cs = some ds ↔ IsDigitRun value? cs ds := by
  constructor
  · intro h
    fun_induction digitRun? value? cs generalizing ds with
    | case1 => cases h
    | case2 c =>
      obtain ⟨d, hc, rfl⟩ := Option.map_eq_some_iff.1 h
      exact .one hc
    | case3 c rest ih =>
      simp only [Option.bind_eq_bind, Option.bind_eq_some_iff, Option.pure_def, Option.some.injEq] at h
      obtain ⟨d, hc, later, hlater, rfl⟩ := h
      exact .apart hc (ih hlater)
    | case4 c d rest _ ih =>
      simp only [Option.bind_eq_bind, Option.bind_eq_some_iff, Option.pure_def, Option.some.injEq] at h
      obtain ⟨d, hc, later, hlater, rfl⟩ := h
      exact .next hc (ih hlater)
  · intro h
    induction h with
    | one hc => rw [digitRun?, hc, Option.map_some]
    | @next c d cs ds hc hrest ih =>
      -- what follows starts with a digit, so it is no underscore
      obtain ⟨second, rest, e, rfl, hsecond⟩ := hrest.exists_cons
      have hne : second ≠ char '_' := by
        rintro rfl
        rw [hunderscore] at hsecond
        cases hsecond
      rw [digitRun?, hc, ih]
      · rfl
      · exact hne
    | apart hc hrest ih =>
      rw [digitRun?, hc, ih]
      rfl

end Text

namespace Uuid

/-! ### Digits and other characters -/

theorem hexValue?_spec {c : CodePoint} {d : ℕ} (h : Text.hexValue? c = some d) :
    d < 16 ∧ 48 ≤ c.toNat ∧ c.toNat ≤ 102 := by
  unfold Text.hexValue? at h
  split at h
  · next hc =>
    have hdigit : 48 ≤ c.toNat ∧ c.toNat ≤ 57 := hc
    cases h
    show c.toNat - 48 < 16 ∧ 48 ≤ c.toNat ∧ c.toNat ≤ 102
    omega
  · split at h
    · next hc =>
      have hlower : 97 ≤ c.toNat ∧ c.toNat ≤ 102 := hc
      cases h
      show c.toNat - 97 + 10 < 16 ∧ 48 ≤ c.toNat ∧ c.toNat ≤ 102
      omega
    · split at h
      · next hc =>
        have hupper : 65 ≤ c.toNat ∧ c.toNat ≤ 70 := hc
        cases h
        show c.toNat - 65 + 10 < 16 ∧ 48 ≤ c.toNat ∧ c.toNat ≤ 102
        omega
      · cases h

/-- A digit of any script belongs to the table of digits. -/
theorem covers_of_decimalValueIn {runs : List (ℕ × ℕ)} {n d : ℕ} (h : decimalValueIn runs n = some d) :
    covers runs n = true := by
  induction runs with
  | nil => cases h
  | cons run runs ih =>
    rw [decimalValueIn] at h
    rw [covers]
    split at h
    · cases h
    · next hlow =>
      rw [if_neg hlow]
      split at h
      · next hhigh => rw [decide_eq_true hhigh, Bool.true_or]
      · rw [ih h, Bool.or_true]

theorem digitValue?_lt {c : CodePoint} {d : ℕ} (h : digitValue? c = some d) : d < 16 := by
  rcases Option.or_eq_some_iff.1 h with h | ⟨-, h⟩
  · exact (hexValue?_spec h).1
  · exact Nat.lt_trans (Unicode.decimalValue?_lt h) (by decide)

/-- Digits are no white space. -/
theorem isWhiteSpace_of_digitValue? {c : CodePoint} {d : ℕ} (h : digitValue? c = some d) :
    isWhiteSpace c = false := by
  have hblank : isBlank c = false := by
    rcases Option.or_eq_some_iff.1 h with h | ⟨-, h⟩
    · obtain ⟨-, hlow, hhigh⟩ := hexValue?_spec h
      simp only [isBlank, covers, blankIntervals]
      grind
    · have hdecimal : increasingFrom 0 decimalIntervals = true := by decide
      have hspaces : increasingFrom 0 blankIntervals = true := by decide
      exact covers_of_apart hdecimal hspaces (by decide +kernel) (covers_of_decimalValueIn h)
  rw [isWhiteSpace, hblank, Bool.false_and]

/-! ### Numerals -/

/-- The mark `0x` in front of digits, after which one underscore may stand. -/
inductive IsMark : List CodePoint → Prop
  | absent : IsMark []
  | present {zero x : CodePoint} (hzero : digitValue? zero = some 0) (hx : x = char 'x' ∨ x = char 'X') :
    IsMark [zero, x]
  | apart {zero x : CodePoint} (hzero : digitValue? zero = some 0) (hx : x = char 'x' ∨ x = char 'X') :
    IsMark [zero, x, '_']

/-- The number with the given digits. -/
def valueOf (ds : List ℕ) : ℕ :=
  ds.foldl (fun n d => 16 * n + d) 0

/-- Numerals and their numbers: white space, perhaps a sign, perhaps a mark, digits and white space. -/
inductive IsNumeral : List CodePoint → ℕ → Prop
  | mk {before sign mark run after : List CodePoint} {ds : List ℕ}
    (hbefore : ∀ c ∈ before, isWhiteSpace c = true) (hsign : sign = [] ∨ sign = [char '+'])
    (hmark : IsMark mark) (hrun : Text.IsDigitRun digitValue? run ds) (hafter : ∀ c ∈ after, isWhiteSpace c = true) :
    IsNumeral (before ++ (sign ++ (mark ++ run)) ++ after) (valueOf ds)

theorem digitValue?_of_mark :
    digitValue? '+' = none ∧ digitValue? '_' = none ∧ digitValue? 'x' = none ∧ digitValue? 'X' = none := by
  decide +kernel

/-- The characters of a mark and of digits are no white space. -/
theorem isWhiteSpace_of_mark {mark run : List CodePoint} {ds : List ℕ} (hmark : IsMark mark)
    (hrun : Text.IsDigitRun digitValue? run ds) : ∀ c ∈ mark ++ run, isWhiteSpace c = false := by
  have hletters : isWhiteSpace 'x' = false ∧ isWhiteSpace 'X' = false ∧ isWhiteSpace '_' = false := by
    decide
  have hx {x : CodePoint} (hx : x = char 'x' ∨ x = char 'X') : isWhiteSpace x = false := by
    rcases hx with rfl | rfl
    · exact hletters.1
    · exact hletters.2.1
  have hdigits : ∀ c ∈ run, isWhiteSpace c = false := by
    intro c hc
    rcases hrun.mem_cases c hc with rfl | ⟨d, hd⟩
    · exact hletters.2.2
    · exact isWhiteSpace_of_digitValue? hd
  rw [List.forall_mem_append]
  refine ⟨?_, hdigits⟩
  cases hmark with
  | absent => exact List.forall_mem_nil _
  | present hzero h => simp [isWhiteSpace_of_digitValue? hzero, hx h]
  | apart hzero h => simp [isWhiteSpace_of_digitValue? hzero, hx h, hletters.2.2]

/-! ### Taking numerals apart -/

theorem exists_sign (cs : List CodePoint) :
    ∃ sign, (sign = [] ∨ sign = [char '+']) ∧ cs = sign ++ unsigned cs := by
  unfold unsigned
  split
  · exact ⟨[char '+'], .inr rfl, rfl⟩
  · exact ⟨[], .inl rfl, rfl⟩

theorem exists_mark_joined {zero x : CodePoint} (hzero : digitValue? zero = some 0)
    (hx : x = char 'x' ∨ x = char 'X') (rest : List CodePoint) :
    ∃ mark, IsMark mark ∧ zero :: x :: rest = mark ++ unmarked.joined rest := by
  unfold unmarked.joined
  split
  · exact ⟨_, .apart hzero hx, rfl⟩
  · exact ⟨_, .present hzero hx, rfl⟩

theorem exists_mark (cs : List CodePoint) : ∃ mark, IsMark mark ∧ cs = mark ++ unmarked cs := by
  unfold unmarked
  split
  · split
    · next hzero => exact exists_mark_joined hzero (.inl rfl) _
    · exact ⟨[], .absent, rfl⟩
  · split
    · next hzero => exact exists_mark_joined hzero (.inr rfl) _
    · exact ⟨[], .absent, rfl⟩
  · exact ⟨[], .absent, rfl⟩

/-! ### Putting numerals together -/

/-- Behind the sign stands a digit. -/
theorem exists_digit_of_mark {mark run : List CodePoint} {ds : List ℕ} (hmark : IsMark mark)
    (hrun : Text.IsDigitRun digitValue? run ds) :
    ∃ c rest d, mark ++ run = c :: rest ∧ digitValue? c = some d := by
  cases hmark with
  | absent => exact hrun.exists_cons
  | present hzero _ => exact ⟨_, _, _, rfl, hzero⟩
  | apart hzero _ => exact ⟨_, _, _, rfl, hzero⟩

theorem unsigned_append {sign mark run : List CodePoint} {ds : List ℕ} (hsign : sign = [] ∨ sign = [char '+'])
    (hmark : IsMark mark) (hrun : Text.IsDigitRun digitValue? run ds) :
    unsigned (sign ++ (mark ++ run)) = mark ++ run := by
  rcases hsign with rfl | rfl
  · obtain ⟨c, rest, d, hcons, hc⟩ := exists_digit_of_mark hmark hrun
    rw [List.nil_append, hcons]
    unfold unsigned
    split
    · next heq =>
      cases heq
      rw [digitValue?_of_mark.1] at hc
      cases hc
    · rfl
  · rfl

theorem joined_eq_self {run : List CodePoint} {ds : List ℕ} (hrun : Text.IsDigitRun digitValue? run ds) :
    unmarked.joined run = run := by
  obtain ⟨c, rest, d, rfl, hc⟩ := hrun.exists_cons
  unfold unmarked.joined
  split
  · next heq =>
    cases heq
    rw [digitValue?_of_mark.2.1] at hc
    cases hc
  · rfl

theorem unmarked_append {mark run : List CodePoint} {ds : List ℕ} (hmark : IsMark mark)
    (hrun : Text.IsDigitRun digitValue? run ds) : unmarked (mark ++ run) = run := by
  obtain ⟨-, hunderscore, hlower, hupper⟩ := digitValue?_of_mark
  have hnot {x : CodePoint} (hx : x = char 'x' ∨ x = char 'X') : x ∉ run := by
    intro hmem
    rcases hrun.mem_cases x hmem with h | ⟨d, hd⟩
    · rcases hx with rfl | rfl <;> cases h
    · rcases hx with rfl | rfl
      · rw [hlower] at hd
        cases hd
      · rw [hupper] at hd
        cases hd
  cases hmark with
  | absent =>
    rw [List.nil_append]
    unfold unmarked
    split
    · exact absurd (by simp) (hnot (.inl rfl))
    · exact absurd (by simp) (hnot (.inr rfl))
    · rfl
  | present hzero hx =>
    rcases hx with rfl | rfl
    all_goals
      rw [List.cons_append, List.cons_append, List.nil_append, unmarked, if_pos hzero, joined_eq_self hrun]
  | apart hzero hx =>
    rcases hx with rfl | rfl
    all_goals
      rw [List.cons_append, List.cons_append, List.cons_append, List.nil_append, unmarked, if_pos hzero]
      rfl

/-! ### Thirty-two characters -/

/-- The number of characters is the number of the numeral that they are. -/
theorem number?_eq_some_iff {cs : List CodePoint} {n : ℕ} :
    number? cs = some n ↔ cs.length = 32 ∧ IsNumeral cs n := by
  unfold number?
  constructor
  · intro h
    split at h
    · next hlength =>
      obtain ⟨ds, hrun, rfl⟩ := Option.map_eq_some_iff.1 h
      rw [Text.digitRun?_eq_some_iff digitValue?_of_mark.2.1] at hrun
      obtain ⟨before, after, hbefore, hafter, htrim⟩ := Text.exists_trim isWhiteSpace cs
      obtain ⟨sign, hsign, hunsigned⟩ := exists_sign (Text.trim isWhiteSpace cs)
      obtain ⟨mark, hmark, hunmarked⟩ := exists_mark (unsigned (Text.trim isWhiteSpace cs))
      refine ⟨hlength, ?_⟩
      rw [htrim, hunsigned, hunmarked]
      exact .mk hbefore hsign hmark hrun hafter
    · cases h
  · intro h
    obtain ⟨hlength, hnumeral⟩ := h
    cases hnumeral with
    | @mk before sign mark run after ds hbefore hsign hmark hrun hafter =>
      have hinner : ∀ c ∈ sign ++ (mark ++ run), isWhiteSpace c = false := by
        rw [List.forall_mem_append]
        refine ⟨?_, isWhiteSpace_of_mark hmark hrun⟩
        rcases hsign with rfl | rfl
        · exact List.forall_mem_nil _
        · exact List.forall_mem_singleton.2 (by decide)
      rw [if_pos hlength, Text.trim_enclosed hbefore hinner hafter, unsigned_append hsign hmark hrun,
        unmarked_append hmark hrun, (Text.digitRun?_eq_some_iff digitValue?_of_mark.2.1).2 hrun]
      rfl

/-- Digits of base sixteen have a number below the power of their count. -/
theorem valueOf_lt {ds : List ℕ} (h : ∀ d ∈ ds, d < 16) : valueOf ds < 16 ^ ds.length := by
  have hfrom (start : ℕ) : ds.foldl (fun n d => 16 * n + d) start < (start + 1) * 16 ^ ds.length := by
    induction ds generalizing start with
    | nil => simp
    | cons d ds ih =>
      obtain ⟨hd, hrest⟩ := List.forall_mem_cons.1 h
      calc ds.foldl (fun n d => 16 * n + d) (16 * start + d)
          < (16 * start + d + 1) * 16 ^ ds.length := ih hrest _
        _ ≤ (16 * (start + 1)) * 16 ^ ds.length := Nat.mul_le_mul_right _ (by omega)
        _ = (start + 1) * 16 ^ (ds.length + 1) := by rw [Nat.pow_succ, Nat.mul_comm 16, Nat.mul_assoc,
            Nat.mul_comm 16]
  have hzero := hfrom 0
  rw [Nat.zero_add, Nat.one_mul] at hzero
  exact hzero

/-- **Range.** Thirty-two characters have no number beyond 128 bits. -/
theorem lt_of_number? {cs : List CodePoint} {n : ℕ} (h : number? cs = some n) : n < uuidBound := by
  obtain ⟨hlength, hnumeral⟩ := number?_eq_some_iff.1 h
  cases hnumeral with
  | @mk before sign mark run after ds _ _ _ hrun _ =>
    have hdigits : ∀ d ∈ ds, d < 16 := by
      intro d hd
      obtain ⟨c, hc⟩ := hrun.values.2 d hd
      exact digitValue?_lt hc
    have hcount : ds.length ≤ 32 := by
      have hle := hrun.values.1
      simp only [List.length_append] at hlength
      omega
    calc valueOf ds < 16 ^ ds.length := valueOf_lt hdigits
      _ ≤ 16 ^ 32 := Nat.pow_le_pow_right (by decide) hcount
      _ = uuidBound := by decide

theorem ofNat?_eq_some_iff {n : ℕ} {id : Uuid} : ofNat? n = some id ↔ n = id.number := by
  unfold ofNat?
  constructor
  · intro h
    split at h
    · cases h
      rfl
    · cases h
  · intro h
    subst h
    exact dif_pos id.number_lt

/-- What is read is the identifier of the numeral. No numeral is refused for being too large. -/
theorem ofChars?_eq_some_iff {cs : List CodePoint} {id : Uuid} :
    ofChars? cs = some id ↔ (bare cs).length = 32 ∧ IsNumeral (bare cs) id.number := by
  rw [ofChars?, Option.bind_eq_some_iff]
  simp only [ofNat?_eq_some_iff, exists_eq_right]
  exact number?_eq_some_iff

end Uuid

end FeatureToggles
