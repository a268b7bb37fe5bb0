import FeatureToggles.RuleText.Token
import Mathlib.Data.List.TakeWhile

/-!
# Shapes of tokens

A token is a stretch of the text that has the shape of its kind and ends where the text does not go on with
it. Its first character tells which kinds it can be of, and so the text starts with one token at most.
-/

namespace FeatureToggles.RuleText

open CodePoint (char)

open Unicode (apart blankIntervals covers_of_apart digitIntervals increasingFrom isBlank isDigit isLetter
  isNumeric letterIntervals numericIntervals)

/-! ### Character classes -/

theorem increasingFrom_letterIntervals : increasingFrom 0 letterIntervals = true := by
  decide +kernel

theorem increasingFrom_numericIntervals : increasingFrom 0 numericIntervals = true := by
  decide +kernel

theorem increasingFrom_digitIntervals : increasingFrom 0 digitIntervals = true := by
  decide +kernel

/-- White space is nothing that words and numbers are made of. -/
theorem isBlank_spec {c : CodePoint} (h : isBlank c = true) :
    isLetter c = false ∧ isNumeric c = false ∧ isDigit c = false ∧ c ≠ char '_' := by
  have hblank : increasingFrom 0 blankIntervals = true := by decide
  refine ⟨?_, ?_, ?_, ?_⟩
  · exact covers_of_apart hblank increasingFrom_letterIntervals (by decide +kernel) h
  · exact covers_of_apart hblank increasingFrom_numericIntervals (by decide +kernel) h
  · exact covers_of_apart hblank increasingFrom_digitIntervals (by decide +kernel) h
  · rintro rfl
    exact absurd h (by decide +kernel)

/-- No digit starts a word. -/
theorem isWordStart_of_isDigit {c : CodePoint} (h : isDigit c = true) : isWordStart c = false := by
  have hletter : isLetter c = false :=
    covers_of_apart increasingFrom_digitIntervals increasingFrom_letterIntervals (by decide +kernel) h
  have hunderscore : c ≠ char '_' := by
    rintro rfl
    exact absurd h (by decide +kernel)
  simp [isWordStart, hletter, hunderscore]

theorem isNumberPart_of_isDigit {c : CodePoint} (h : isDigit c = true) : isNumberPart c = true := by
  rw [isNumberPart, h, Bool.true_or]

/-- The characters of operators start nothing else. -/
theorem isOperatorChar_spec {c : CodePoint} (h : isOperatorChar c = true) :
    isBlank c = false ∧ isWordStart c = false ∧ isDigit c = false ∧ c ≠ char '\x22' := by
  simp only [isOperatorChar, Bool.or_eq_true, decide_eq_true_eq, or_assoc] at h
  rcases h with rfl | rfl | rfl | rfl | rfl | rfl <;> decide +kernel

theorem isWordPart_of_isBlank {c : CodePoint} (h : isBlank c = true) : isWordPart c = false := by
  obtain ⟨hletter, hnumeric, -, hne⟩ := isBlank_spec h
  simp [isWordPart, hletter, hnumeric, hne]

theorem isNumberPart_of_isBlank {c : CodePoint} (h : isBlank c = true) : isNumberPart c = false := by
  obtain ⟨-, -, hdigit, hne⟩ := isBlank_spec h
  simp [isNumberPart, hdigit, hne]

theorem isOperatorChar_of_isBlank {c : CodePoint} (h : isBlank c = true) : isOperatorChar c = false :=
  Bool.eq_false_iff.2 fun hc => by
    rw [(isOperatorChar_spec hc).1] at h
    cases h

/-! ### Shapes -/

/-- A word. -/
def IsWord (cs : List CodePoint) : Prop :=
  ∃ c rest, cs = c :: rest ∧ isWordStart c = true ∧ ∀ d ∈ rest, isWordPart d = true

/-- A number without a point. -/
def IsWhole (cs : List CodePoint) : Prop :=
  ∃ c rest, cs = c :: rest ∧ isDigit c = true ∧ ∀ d ∈ rest, isNumberPart d = true

/-- A number with a point, behind which nothing has to stand. -/
def IsFractional (cs : List CodePoint) : Prop :=
  ∃ whole fraction, cs = whole ++ char '.' :: fraction ∧ IsWhole whole ∧
    ∀ d ∈ fraction, isNumberPart d = true

/-- One or two characters of operators. -/
def IsOperatorText (cs : List CodePoint) : Prop :=
  (cs.length = 1 ∨ cs.length = 2) ∧ ∀ c ∈ cs, isOperatorChar c = true

instance : DecidablePred IsOperatorText := fun cs =>
  decidable_of_iff ((cs.length = 1 ∨ cs.length = 2) ∧ cs.all isOperatorChar = true)
    (and_congr_right fun _ => List.all_eq_true)

/-- `Unescapes body value`: between quotes, `body` stands for `value`. A backslash stands for the character
behind it, whatever that is. -/
inductive Unescapes : List CodePoint → List CodePoint → Prop where
  | nil : Unescapes [] []
  | escaped {body value : List CodePoint} (c : CodePoint) : Unescapes body value →
      Unescapes (char '\\' :: c :: body) (c :: value)
  | plain {body value : List CodePoint} (c : CodePoint) : c ≠ char '\x22' → c ≠ char '\\' →
      Unescapes body value → Unescapes (c :: body) (c :: value)

/-- A string between quotes, and the text that it stands for. -/
def IsQuoted (span value : List CodePoint) : Prop :=
  ∃ body, span = char '\x22' :: (body ++ [char '\x22']) ∧ Unescapes body value

namespace TokenKind

/-- The shape of a token: what stands in the text, and what the token holds of it. -/
def HasShape (kind : TokenKind) (span value : List CodePoint) : Prop :=
  match kind with
  | ident => value = span ∧ IsWord span ∧ span ≠ ("true" : Text).toList ∧ span ≠ ("false" : Text).toList
  | keyword => value = span ∧ (span = ("true" : Text).toList ∨ span = ("false" : Text).toList)
  | string => IsQuoted span value
  | int => value = span ∧ IsWhole span
  | float => value = span ∧ IsFractional span
  | op => value = span ∧ IsOperatorText span
  | groupStart => value = span ∧ span = [char '(']
  | groupEnd => value = span ∧ span = [char ')']

/-- Whether a token with this text would go on with `c`. -/
def GoesOn (kind : TokenKind) (span : List CodePoint) (c : CodePoint) : Prop :=
  match kind with
  | ident => isWordPart c = true
  | keyword => isWordPart c = true
  | int => isNumberPart c = true ∨ c = char '.'
  | float => isNumberPart c = true
  | op => span.length = 1 ∧ isOperatorChar c = true
  | string => False
  | groupStart => False
  | groupEnd => False

/-- The text behind a token does not go on with it. -/
def Ends (kind : TokenKind) (span rest : List CodePoint) : Prop :=
  ∀ c ∈ rest.head?, ¬ kind.GoesOn span c

/-- The characters that tokens of a kind start with. -/
def Starts (kind : TokenKind) (c : CodePoint) : Prop :=
  match kind with
  | ident => isWordStart c = true
  | keyword => isWordStart c = true
  | string => c = char '\x22'
  | int => isDigit c = true
  | float => isDigit c = true
  | op => isOperatorChar c = true
  | groupStart => c = char '('
  | groupEnd => c = char ')'

end TokenKind

variable {c : CodePoint} {cs rest after span value : List CodePoint} {kind : TokenKind}

/-! ### Words -/

theorem isWord_true : IsWord ("true" : Text).toList :=
  ⟨'t', [char 'r', 'u', 'e'], rfl, by decide +kernel, List.all_eq_true.1 (by decide +kernel)⟩

theorem isWord_false : IsWord ("false" : Text).toList :=
  ⟨'f', [char 'a', 'l', 's', 'e'], rfl, by decide +kernel, List.all_eq_true.1 (by decide +kernel)⟩

/-- A word is a keyword or an identifier. -/
theorem hasShape_wordKind_iff :
    kind.HasShape span value ∧ (kind = .ident ∨ kind = .keyword)
      ↔ kind = wordKind span ∧ value = span ∧ IsWord span := by
  have hkind : wordKind span = .keyword ↔ span = ("true" : Text).toList ∨ span = ("false" : Text).toList := by
    rw [wordKind]
    split <;> simp_all
  constructor
  · rintro ⟨hshape, rfl | rfl⟩
    · obtain ⟨hvalue, hword, htrue, hfalse⟩ := hshape
      refine ⟨?_, hvalue, hword⟩
      rw [wordKind, if_neg (not_or.2 ⟨htrue, hfalse⟩)]
    · obtain ⟨hvalue, hspan⟩ := hshape
      refine ⟨(hkind.2 hspan).symm, hvalue, ?_⟩
      rcases hspan with rfl | rfl
      · exact isWord_true
      · exact isWord_false
  · rintro ⟨rfl, hvalue, hword⟩
    by_cases hspan : span = ("true" : Text).toList ∨ span = ("false" : Text).toList
    · rw [hkind.2 hspan]
      exact ⟨⟨hvalue, hspan⟩, .inr rfl⟩
    · rw [wordKind, if_neg hspan]
      exact ⟨⟨hvalue, hword, not_or.1 hspan⟩, .inl rfl⟩

/-! ### Numbers -/

theorem IsWhole.parts (h : IsWhole span) : ∀ d ∈ span, isNumberPart d = true := by
  obtain ⟨c, rest, rfl, hc, hrest⟩ := h
  exact List.forall_mem_cons.2 ⟨isNumberPart_of_isDigit hc, hrest⟩

theorem isNumberPart_point : isNumberPart '.' = false := by
  decide +kernel

/-- The number that starts with a digit is an integer or has a point. -/
theorem numberAt_spec (hc : isDigit c = true) (rest : List CodePoint) :
    ∃ kind span after, numberAt (c :: rest) = (kind, span, after) ∧ c :: rest = span ++ after ∧
      kind.HasShape span span ∧ kind.Ends span after := by
  have hsplit : c :: rest
      = (c :: rest).takeWhile isNumberPart ++ (c :: rest).dropWhile isNumberPart :=
    List.takeWhile_append_dropWhile.symm
  have hstart : (c :: rest).takeWhile isNumberPart = c :: rest.takeWhile isNumberPart :=
    List.takeWhile_cons_of_pos (isNumberPart_of_isDigit hc)
  have hwhole : IsWhole ((c :: rest).takeWhile isNumberPart) :=
    ⟨c, _, hstart, hc, fun d hd => List.mem_takeWhile_imp hd⟩
  have hends := Text.head?_dropWhile_spec isNumberPart (c :: rest)
  unfold numberAt
  split
  · next more hmore =>
    refine ⟨_, _, _, rfl, ?_, ⟨rfl, _, _, rfl, hwhole, fun d hd => List.mem_takeWhile_imp hd⟩, ?_⟩
    · rw [hmore] at hsplit
      rw [List.append_assoc, List.cons_append, List.takeWhile_append_dropWhile]
      exact hsplit
    · intro d hd
      show ¬ isNumberPart d = true
      simp [Text.head?_dropWhile_spec isNumberPart more d hd]
  · next hpoint =>
    refine ⟨_, _, _, rfl, hsplit, ⟨rfl, hwhole⟩, fun d hd => ?_⟩
    rintro (hpart | rfl)
    · simp [hends d hd] at hpart
    · obtain ⟨more, hmore⟩ := List.head?_eq_some_iff.1 hd
      exact hpoint more hmore

theorem numberAt_int (h : IsWhole span) (hends : TokenKind.int.Ends span after) :
    numberAt (span ++ after) = (.int, span, after) := by
  have hafter : ∀ d ∈ after.head?, isNumberPart d = false := fun d hd => by
    have hnot := hends d hd
    simp only [TokenKind.GoesOn, not_or] at hnot
    simpa using hnot.1
  obtain ⟨htake, hdrop⟩ := Text.span_append h.parts hafter
  rw [numberAt, htake, hdrop]
  split
  · exact absurd (.inr rfl) (hends '.' rfl)
  · rfl

theorem numberAt_float (h : IsFractional span) (hends : TokenKind.float.Ends span after) :
    numberAt (span ++ after) = (.float, span, after) := by
  obtain ⟨whole, fraction, rfl, hwhole, hfraction⟩ := h
  have hafter : ∀ d ∈ after.head?, isNumberPart d = false := fun d hd => by
    simpa [TokenKind.GoesOn] using hends d hd
  have hpoint : ∀ d ∈ (char '.' :: (fraction ++ after)).head?, isNumberPart d = false := by
    rintro d ⟨⟩
    exact isNumberPart_point
  obtain ⟨htake, hdrop⟩ := Text.span_append hwhole.parts hpoint
  obtain ⟨htake', hdrop'⟩ := Text.span_append hfraction hafter
  rw [List.append_assoc, List.cons_append, numberAt, htake, hdrop]
  simp only [htake', hdrop']

/-! ### Strings -/

theorem unescapes_of_stringAt (h : stringAt cs = some (value, after)) :
    ∃ body, cs = body ++ char '\x22' :: after ∧ Unescapes body value := by
  fun_induction stringAt cs generalizing value with
  | case1 => cases h
  | case2 rest =>
    cases h
    exact ⟨[], rfl, .nil⟩
  | case3 c rest ih =>
    obtain ⟨⟨value, after'⟩, hread, hvalue⟩ := Option.map_eq_some_iff.1 h
    cases hvalue
    obtain ⟨body, rfl, hbody⟩ := ih hread
    exact ⟨'\\' :: c :: body, rfl, .escaped c hbody⟩
  | case4 c rest hquote hbackslash ih =>
    obtain ⟨⟨value, after'⟩, hread, hvalue⟩ := Option.map_eq_some_iff.1 h
    cases hvalue
    obtain ⟨body, rfl, hbody⟩ := ih hread
    refine ⟨c :: body, rfl, .plain c hquote ?_ hbody⟩
    -- a quote follows at least, so a backslash would stand for what follows
    rintro rfl
    cases body with
    | nil => exact hbackslash '\x22' after rfl rfl
    | cons d body => exact hbackslash d (body ++ char '\x22' :: after) rfl rfl

theorem stringAt_of_unescapes {body : List CodePoint} (h : Unescapes body value) (after : List CodePoint) :
    stringAt (body ++ char '\x22' :: after) = some (value, after) := by
  induction h with
  | nil => rfl
  | escaped c _ ih =>
    rw [List.cons_append, List.cons_append, stringAt, ih]
    rfl
  | plain c hquote hbackslash _ ih =>
    rw [List.cons_append, stringAt, ih]
    · rfl
    · exact hquote
    · exact fun _ _ h => absurd h hbackslash

/-! ### Operators -/

theorem operatorAt_spec (hc : isOperatorChar c = true) (rest : List CodePoint) :
    ∃ span after, operatorAt c rest = (span, after) ∧ c :: rest = span ++ after ∧
      IsOperatorText span ∧ TokenKind.op.Ends span after := by
  cases rest with
  | nil =>
    exact ⟨[c], [], rfl, rfl, ⟨.inl rfl, List.forall_mem_singleton.2 hc⟩, fun d hd => by cases hd⟩
  | cons d rest =>
    by_cases hd : isOperatorChar d = true
    · refine ⟨[c, d], rest, by simp [operatorAt, hd], rfl, ⟨.inr rfl, ?_⟩, ?_⟩
      · exact List.forall_mem_cons.2 ⟨hc, List.forall_mem_singleton.2 hd⟩
      · rintro e - ⟨hlength, -⟩
        cases hlength
    · refine ⟨[c], d :: rest, by simp [operatorAt, hd], rfl,
        ⟨.inl rfl, List.forall_mem_singleton.2 hc⟩, ?_⟩
      rintro e ⟨⟩ ⟨-, he⟩
      exact hd he

theorem operatorAt_of_ends (h : IsOperatorText (c :: cs)) (hends : TokenKind.op.Ends (c :: cs) after) :
    operatorAt c (cs ++ after) = (c :: cs, after) := by
  obtain ⟨hlength, hchars⟩ := h
  match cs, hlength with
  | [], _ =>
    cases after with
    | nil => rfl
    | cons d after =>
      have hd : ¬ isOperatorChar d = true := fun hd => hends d rfl ⟨rfl, hd⟩
      simp [operatorAt, hd]
  | [d], _ =>
    have hd : isOperatorChar d = true := hchars d (by simp)
    simp [operatorAt, hd]

/-! ### Tokens -/

theorem TokenKind.HasShape.ne_nil (h : kind.HasShape span value) : span ≠ [] := by
  rintro rfl
  cases kind <;> simp [TokenKind.HasShape, IsWord, IsQuoted, IsWhole, IsFractional, IsOperatorText] at h

/-- A token starts with what its kind starts with. -/
theorem TokenKind.HasShape.starts (h : kind.HasShape (c :: cs) value) : kind.Starts c := by
  cases kind with
  | ident =>
    obtain ⟨-, ⟨d, rest, hd, hstart, -⟩, -⟩ := h
    cases hd
    exact hstart
  | keyword =>
    obtain ⟨-, d, rest, hd, hstart, -⟩ := (hasShape_wordKind_iff.1 ⟨h, .inr rfl⟩).2
    cases hd
    exact hstart
  | string =>
    obtain ⟨body, hbody, -⟩ := h
    cases hbody
    rfl
  | int =>
    obtain ⟨-, d, rest, hd, hdigit, -⟩ := h
    cases hd
    exact hdigit
  | float =>
    obtain ⟨-, whole, fraction, hcs, ⟨d, rest, rfl, hdigit, -⟩, -⟩ := h
    cases hcs
    exact hdigit
  | op => exact h.2.2 c List.mem_cons_self
  | groupStart =>
    obtain ⟨-, hcs⟩ := h
    cases hcs
    rfl
  | groupEnd =>
    obtain ⟨-, hcs⟩ := h
    cases hcs
    rfl

/-- What starts a token is no white space. -/
theorem TokenKind.Starts.isBlank_eq (h : kind.Starts c) : isBlank c = false := by
  rw [Bool.eq_false_iff]
  intro hblank
  obtain ⟨hletter, -, hdigit, hne⟩ := isBlank_spec hblank
  cases kind with
  | ident => simp [Starts, isWordStart, hletter, hne] at h
  | keyword => simp [Starts, isWordStart, hletter, hne] at h
  | int => simp [Starts, hdigit] at h
  | float => simp [Starts, hdigit] at h
  | op => simp [Starts, isOperatorChar_of_isBlank hblank] at h
  | string =>
    cases h
    exact absurd hblank (by decide +kernel)
  | groupStart =>
    cases h
    exact absurd hblank (by decide +kernel)
  | groupEnd =>
    cases h
    exact absurd hblank (by decide +kernel)

/-- White space goes on with no token. -/
theorem TokenKind.not_goesOn_of_isBlank (kind : TokenKind) (span : List CodePoint) (h : isBlank c = true) :
    ¬ kind.GoesOn span c := by
  have hpoint : c ≠ char '.' := by
    rintro rfl
    exact absurd h (by decide +kernel)
  cases kind <;> simp [GoesOn, isWordPart_of_isBlank h, isNumberPart_of_isBlank h,
    isOperatorChar_of_isBlank h, hpoint]

theorem tokenAt_of_isDigit (h : isDigit c = true) : tokenAt c rest = .ok (numberAt (c :: rest)) := by
  rw [tokenAt, if_neg (by simp [isWordStart_of_isDigit h]), if_pos h]

theorem tokenAt_quote : tokenAt '\x22' rest = match stringAt rest with
    | some (value, after) => .ok (.string, value, after)
    | none => .error .unterminatedString := by
  have hword : isWordStart '\x22' = false := by decide +kernel
  have hdigit : isDigit '\x22' = false := by decide +kernel
  cases hstring : stringAt rest <;> simp [tokenAt, hword, hdigit, hstring]

theorem tokenAt_of_isOperatorChar (h : isOperatorChar c = true) :
    tokenAt c rest = .ok (.op, operatorAt c rest) := by
  obtain ⟨-, hword, hdigit, hquote⟩ := isOperatorChar_spec h
  rw [tokenAt, if_neg (by simp [hword]), if_neg (by simp [hdigit]), if_neg hquote, if_pos h]

theorem tokenAt_open : tokenAt '(' rest = .ok (.groupStart, [char '('], rest) := by
  have hchar : isWordStart '(' = false ∧ isDigit '(' = false ∧ isOperatorChar '(' = false := by
    decide +kernel
  simp [tokenAt, hchar]

theorem tokenAt_close : tokenAt ')' rest = .ok (.groupEnd, [char ')'], rest) := by
  have hchar : isWordStart ')' = false ∧ isDigit ')' = false ∧ isOperatorChar ')' = false := by
    decide +kernel
  simp [tokenAt, hchar]

theorem tokenAt_of_not_starts (h : ∀ kind : TokenKind, ¬ kind.Starts c) :
    tokenAt c rest = .error (.unexpectedChar c) := by
  have hword : ¬ isWordStart c = true := h .ident
  have hdigit : ¬ isDigit c = true := h .int
  have hquote : ¬ c = char '\x22' := h .string
  have hoperator : ¬ isOperatorChar c = true := h .op
  have hopen : ¬ c = char '(' := h .groupStart
  have hclose : ¬ c = char ')' := h .groupEnd
  rw [tokenAt, if_neg hword, if_neg hdigit, if_neg hquote, if_neg hoperator, if_neg hopen,
    if_neg hclose]

/-- The first character tells how a token is read. -/
theorem starts_cases (c : CodePoint) : isWordStart c = true ∨ isDigit c = true ∨ c = char '\x22' ∨
    isOperatorChar c = true ∨ c = char '(' ∨ c = char ')' ∨ ∀ kind : TokenKind, ¬ kind.Starts c := by
  by_cases h : ∃ kind : TokenKind, kind.Starts c
  · obtain ⟨kind, h⟩ := h
    cases kind <;> simp only [TokenKind.Starts] at h <;> simp [h]
  · simp only [not_exists.1 h, not_false_eq_true, implies_true, or_true]

/-- What is read as a token has the shape of its kind, and the text does not go on with it. -/
theorem hasShape_of_tokenAt (h : tokenAt c rest = .ok (kind, value, after)) :
    ∃ span, c :: rest = span ++ after ∧ kind.HasShape span value ∧ kind.Ends span after := by
  rcases starts_cases c with hc | hc | rfl | hc | rfl | rfl | hc
  · rw [tokenAt, if_pos hc] at h
    cases h
    have hword : IsWord (c :: rest.takeWhile isWordPart) :=
      ⟨c, _, rfl, hc, fun d hd => List.mem_takeWhile_imp hd⟩
    obtain ⟨hshape, hkind⟩ := hasShape_wordKind_iff.2 ⟨rfl, rfl, hword⟩
    refine ⟨_, ?_, hshape, fun d hd => ?_⟩
    · rw [List.cons_append, List.takeWhile_append_dropWhile]
    · have hpart := Text.head?_dropWhile_spec isWordPart rest d hd
      rcases hkind with hkind | hkind <;> simp [hkind, TokenKind.GoesOn, hpart]
  · obtain ⟨kind', span, after', hnumber, hread⟩ := numberAt_spec hc rest
    rw [tokenAt_of_isDigit hc, hnumber] at h
    cases h
    exact ⟨_, hread⟩
  · rw [tokenAt_quote] at h
    split at h
    · next hstring =>
      cases h
      obtain ⟨body, rfl, hbody⟩ := unescapes_of_stringAt hstring
      exact ⟨char '\x22' :: (body ++ [char '\x22']), by simp, ⟨body, rfl, hbody⟩, fun _ _ => not_false⟩
    · cases h
  · obtain ⟨span, after', hoperator, hsplit, htext, hends⟩ := operatorAt_spec hc rest
    rw [tokenAt_of_isOperatorChar hc, hoperator] at h
    cases h
    exact ⟨_, hsplit, ⟨rfl, htext⟩, hends⟩
  · rw [tokenAt_open] at h
    cases h
    exact ⟨[char '('], rfl, ⟨rfl, rfl⟩, fun _ _ => not_false⟩
  · rw [tokenAt_close] at h
    cases h
    exact ⟨[char ')'], rfl, ⟨rfl, rfl⟩, fun _ _ => not_false⟩
  · rw [tokenAt_of_not_starts hc] at h
    cases h

theorem tokenAt_of_isWord (hkind : kind = wordKind (c :: cs)) (h : IsWord (c :: cs))
    (hafter : ∀ d ∈ after.head?, isWordPart d = false) :
    tokenAt c (cs ++ after) = .ok (kind, c :: cs, after) := by
  obtain ⟨d, rest, hd, hstart, hrest⟩ := h
  cases hd
  obtain ⟨htake, hdrop⟩ := Text.span_append hrest hafter
  rw [tokenAt, if_pos hstart, htake, hdrop, hkind]

/-- What has the shape of a token is read as one, if the text does not go on with it. -/
theorem tokenAt_of_hasShape (h : kind.HasShape (c :: cs) value) (hends : kind.Ends (c :: cs) after) :
    tokenAt c (cs ++ after) = .ok (kind, value, after) := by
  have hstart := h.starts
  cases kind with
  | ident =>
    obtain ⟨hkind, rfl, hword⟩ := hasShape_wordKind_iff.1 ⟨h, .inl rfl⟩
    exact tokenAt_of_isWord hkind hword fun d hd => by simpa [TokenKind.GoesOn] using hends d hd
  | keyword =>
    obtain ⟨hkind, rfl, hword⟩ := hasShape_wordKind_iff.1 ⟨h, .inr rfl⟩
    exact tokenAt_of_isWord hkind hword fun d hd => by simpa [TokenKind.GoesOn] using hends d hd
  | int =>
    obtain ⟨rfl, hwhole⟩ := h
    rw [tokenAt_of_isDigit hstart, ← List.cons_append, numberAt_int hwhole hends]
  | float =>
    obtain ⟨rfl, hfractional⟩ := h
    rw [tokenAt_of_isDigit hstart, ← List.cons_append, numberAt_float hfractional hends]
  | string =>
    obtain ⟨body, hspan, hbody⟩ := h
    cases hspan
    rw [tokenAt_quote, List.append_assoc, List.singleton_append, stringAt_of_unescapes hbody]
  | op =>
    obtain ⟨rfl, htext⟩ := h
    rw [tokenAt_of_isOperatorChar hstart, operatorAt_of_ends htext hends]
  | groupStart =>
    obtain ⟨rfl, hspan⟩ := h
    cases hspan
    exact tokenAt_open
  | groupEnd =>
    obtain ⟨rfl, hspan⟩ := h
    cases hspan
    exact tokenAt_close

/-- A token is read where a stretch of its shape ends. -/
theorem tokenAt_eq_ok_iff : tokenAt c rest = .ok (kind, value, after)
    ↔ ∃ span, c :: rest = span ++ after ∧ kind.HasShape span value ∧ kind.Ends span after := by
  constructor
  · exact hasShape_of_tokenAt
  · rintro ⟨span, hsplit, hshape, hends⟩
    obtain ⟨d, cs, rfl⟩ := List.exists_cons_of_ne_nil hshape.ne_nil
    cases hsplit
    exact tokenAt_of_hasShape hshape hends

/-! ### What is no token -/

/-- What stands here is no token: a quote that no other closes, or a character that starts none. -/
inductive Stuck : List CodePoint → Fault → Prop where
  | unterminatedString {rest : List CodePoint} :
      (∀ body after value, rest = body ++ char '\x22' :: after → ¬ Unescapes body value) →
      Stuck (char '\x22' :: rest) .unterminatedString
  | unexpectedChar {c : CodePoint} {rest : List CodePoint} : isBlank c = false →
      (∀ kind : TokenKind, ¬ kind.Starts c) → Stuck (c :: rest) (.unexpectedChar c)

theorem Stuck.exists_cons {fault : Fault} (h : Stuck cs fault) :
    ∃ c rest, cs = c :: rest ∧ isBlank c = false := by
  cases h with
  | unterminatedString => exact ⟨_, _, rfl, by decide +kernel⟩
  | unexpectedChar hblank => exact ⟨_, _, rfl, hblank⟩

theorem tokenAt_eq_error_iff {fault : Fault} (hblank : isBlank c = false) :
    tokenAt c rest = .error fault ↔ Stuck (c :: rest) fault := by
  constructor
  · intro h
    rcases starts_cases c with hc | hc | rfl | hc | rfl | rfl | hc
    · rw [tokenAt, if_pos hc] at h
      cases h
    · rw [tokenAt_of_isDigit hc] at h
      cases h
    · rw [tokenAt_quote] at h
      split at h
      · cases h
      · next hstring =>
        cases h
        refine .unterminatedString fun body after value hrest hbody => ?_
        rw [hrest, stringAt_of_unescapes hbody] at hstring
        cases hstring
    · rw [tokenAt_of_isOperatorChar hc] at h
      cases h
    · rw [tokenAt_open] at h
      cases h
    · rw [tokenAt_close] at h
      cases h
    · rw [tokenAt_of_not_starts hc] at h
      cases h
      exact .unexpectedChar hblank hc
  · intro h
    cases h with
    | unterminatedString hclosed =>
      have hstring : stringAt rest = none := by
        rw [Option.eq_none_iff_forall_ne_some]
        rintro ⟨value, after⟩ hread
        obtain ⟨body, hrest, hbody⟩ := unescapes_of_stringAt hread
        exact hclosed body after value hrest hbody
      rw [tokenAt_quote, hstring]
    | unexpectedChar _ hstarts => exact tokenAt_of_not_starts hstarts

end FeatureToggles.RuleText
