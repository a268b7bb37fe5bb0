import FeatureToggles.Fault
import FeatureToggles.Proofs.Positions
import FeatureToggles.Proofs.Stopping

/-!
# Syntax errors

A rule text that is not an expression is refused at the first token that cannot be right: with the tokens
in front of it some text of the grammar begins, and with the token as well none does. If no token is wrong,
the text is refused at its end, where a text of the grammar would go on.
-/

namespace FeatureToggles.RuleText

variable {stop levels : Nat} {e : Expr} {ts rest : List Token} {error : Error}

theorem Fault.Refuses.not_isLimit {fault : Fault} {t : Token} (h : fault.Refuses t) :
    ¬ fault.IsLimit := by
  rcases h with rfl | rfl <;> exact not_false

/-- What stops the parser for another reason than its limits is not of the form. -/
theorem not_hasForm_of_stops (h : reader (disjunction (operand stop levels)) ts = .error error)
    (hlimit : ¬ error.fault.IsLimit) : ¬ HasForm .disjunction ts := by
  intro hform
  rcases reads_or_limit_of_hasForm hform stop levels with ⟨e, hread⟩ | ⟨error', herror, hlimit'⟩
  · rw [reader_eq_ok_iff.2 hread] at h
    cases h
  · rw [reader_eq_error_iff.2 herror] at h
    cases h
    exact hlimit hlimit'

/-- What the parser does not read to its end is not of the form. -/
theorem not_hasForm_of_leaves (h : reader (disjunction (operand stop levels)) ts = .ok (e, rest))
    (hrest : rest ≠ []) : ¬ HasForm .disjunction ts := by
  intro hform
  rcases reads_or_limit_of_hasForm hform stop levels with ⟨e', hread⟩ | ⟨error, herror, -⟩
  · exact hrest ((reader_eq_ok_iff.1 h).unique hread).2
  · rw [reader_eq_error_iff.2 herror] at h
    cases h

/-- Why the tokens of a text of `stop` characters are refused. -/
inductive Refused (stop : Nat) (ts : List Token) : Error → Prop where
  | empty : ts = [] → Refused stop ts ⟨.empty, 0⟩
  | limit (error : Error) : error.fault.IsLimit →
      (error.position = 0 ∨ ∃ t ∈ ts, t.position = error.position) → Refused stop ts error
  | token (before : List Token) (t : Token) (after : List Token) (fault : Fault) :
      ts = before ++ t :: after → fault.Refuses t → (∃ more, HasForm .disjunction (before ++ more)) →
      (∀ more, ¬ HasForm .disjunction (before ++ t :: more)) → Refused stop ts ⟨fault, t.position⟩
  | ended : Begins (HasForm .disjunction) ts → ¬ HasForm .disjunction ts →
      Refused stop ts ⟨.unexpectedEnd, stop⟩

/-- The parser stops where its form ends, or leaves a token with which its form does not go on. -/
theorem refused_of_parseTokens (h : parseTokens stop ts = .error error) : Refused stop ts error := by
  by_cases hts : ts = []
  · subst hts
    cases h
    exact .empty rfl
  · rw [parseTokens, if_neg (by simpa using hts)] at h
    cases settles_disjunction (settles_operand stop Expr.maxDepth) ts with
    | limit _ error' hlimit hposition herror =>
      rw [reader_eq_error_iff.1 herror] at h
      cases h
      exact .limit error hlimit (.inr hposition)
    | token before t after fault hbegins hrefuses herror =>
      rw [reader_eq_error_iff.1 (herror after)] at h
      cases h
      obtain ⟨more, -, hform⟩ := hbegins
      exact .token before t after fault rfl hrefuses ⟨more, hform⟩ fun more =>
        not_hasForm_of_stops (herror more) hrefuses.not_isLimit
    | ended _ hbegins herror =>
      rw [reader_eq_error_iff.1 herror] at h
      cases h
      exact .ended hbegins (not_hasForm_of_stops herror not_false)
    | read used rest e hused hread =>
      obtain ⟨hshorter, hok⟩ := reader_eq_ok_iff.1 (hread rest rfl)
      rw [hok] at h
      cases rest with
      | nil =>
        -- all tokens are read, so only the depth of the tree can be refused
        simp only at h
        split at h
        · cases h
          exact .limit _ trivial (.inl rfl)
        · cases h
      | cons t after =>
        cases h
        refine .token used t after _ rfl (.inr rfl) ⟨[], ?_⟩ fun more => ?_
        · rwa [List.append_nil]
        · exact not_hasForm_of_leaves (hread (t :: more) rfl) (List.cons_ne_nil t more)

/-- Tokens are refused where one of them stands, or at one of the ends of the text. -/
theorem Refused.position_le (h : Refused stop ts error) (hts : ∀ t ∈ ts, t.position < stop) :
    error.position ≤ stop := by
  cases h with
  | empty _ => exact Nat.zero_le stop
  | limit _ _ hposition =>
    rcases hposition with hzero | ⟨t, ht, hposition⟩
    · rw [hzero]
      exact Nat.zero_le stop
    · rw [← hposition]
      exact Nat.le_of_lt (hts t ht)
  | token before t after fault hsplit =>
    have ht : t ∈ ts := by simp [hsplit]
    exact Nat.le_of_lt (hts t ht)
  | ended _ _ => exact Nat.le_refl stop

/-- Faults are refused within the text, whether it splits into tokens or not. -/
theorem position_le_of_parse {text : Text} (h : parse text = .error error) :
    error.position ≤ text.length := by
  have hlength : 0 + text.toList.length = text.length := by
    rw [Nat.zero_add, Text.length_toList]
  rw [parse] at h
  cases hlex : lex text with
  | error error' =>
    rw [hlex] at h
    cases h
    have hposition := (position_of_lexFrom hlex).2
    omega
  | ok ts =>
    rw [hlex] at h
    have hbetween := between_of_lexFrom hlex
    rw [hlength] at hbetween
    exact (refused_of_parseTokens h).position_le fun t ht => (hbetween.2 t ht).2

/-- **Syntax errors.** A text that is not parsed is refused within the text, and the report carries the
text and the position. If the text splits into tokens and one of them is refused, the tokens in front of it
begin some text of the grammar, and with this token they begin none. If the end is unexpected, it is the end
of the text; all tokens together begin some text of the grammar and are more than begun by none. -/
theorem syntax_errors_located {text : Text} {error : Error} (h : parse text = .error error) :
    error.position ≤ text.length ∧
    (Fault.badText text error).code = "VALIDATION_ERROR" ∧
    (Fault.badText text error).details
      = ([("position", .int error.position), ("expression", .string text)] : Details) ∧
    ∀ ts, lex text = .ok ts →
      ((error.fault = .unclosedGroup ∨ ∃ s, error.fault = .unexpectedToken s) →
        (∃ t ∈ ts, t.position = error.position ∧ error.fault.Refuses t) ∧
        ∀ (i : Nat) (hi : i < ts.length), ts[i].position = error.position →
          (∃ more, HasForm .disjunction (ts.take i ++ more)) ∧
          ∀ more, ¬ HasForm .disjunction (ts.take (i + 1) ++ more)) ∧
      (error.fault = .unexpectedEnd → error.position = text.length ∧
        (∃ more, more ≠ [] ∧ HasForm .disjunction (ts ++ more)) ∧ ¬ HasForm .disjunction ts) := by
  refine ⟨position_le_of_parse h, rfl, rfl, fun ts hlex => ?_⟩
  have hbetween := between_of_lexFrom hlex
  rw [parse, hlex] at h
  cases refused_of_parseTokens h with
  | empty _ => simp
  | limit _ hlimit _ =>
    constructor
    · rintro (hfault | ⟨s, hfault⟩) <;> exact absurd hlimit (by simp [hfault, Fault.IsLimit])
    · intro hfault
      exact absurd hlimit (by simp [hfault, Fault.IsLimit])
  | ended hbegins hnot => simpa using ⟨hbegins, hnot⟩
  | token before t after fault hsplit hrefuses hviable hnot =>
    subst hsplit
    refine ⟨fun _ => ⟨⟨t, by simp, rfl, hrefuses⟩, fun i hi hposition => ?_⟩, fun hfault => ?_⟩
    · -- no other token stands where the refused one does
      have hindex : i = before.length := hbetween.index_unique hi (by simp) (by simpa using hposition)
      subst hindex
      refine ⟨by simpa using hviable, fun more => ?_⟩
      rw [List.take_length_add_append]
      simpa using hnot more
    · rcases hrefuses with rfl | rfl <;> cases hfault

/-- A single equality sign is no operator, so that a group would have to end where it stands. -/
theorem syntax_errors_located_equality :
    parse "(1 = 2)" = .error ⟨.unclosedGroup, 3⟩ ∧
    (∃ more, HasForm .disjunction ([⟨.groupStart, "(", 0⟩, ⟨.int, "1", 1⟩] ++ more)) ∧
    ∀ more, ¬ HasForm .disjunction
      ([⟨.groupStart, "(", 0⟩, ⟨.int, "1", 1⟩, ⟨.op, "=", 3⟩] ++ more) := by
  have hparse : parse "(1 = 2)" = .error ⟨.unclosedGroup, 3⟩ := by
    cbv
  have hlex : lex "(1 = 2)" = .ok [⟨.groupStart, "(", 0⟩, ⟨.int, "1", 1⟩, ⟨.op, "=", 3⟩,
      ⟨.int, "2", 5⟩, ⟨.groupEnd, ")", 6⟩] := by
    cbv
  obtain ⟨-, -, -, htokens⟩ := syntax_errors_located hparse
  exact ⟨hparse, ((htokens _ hlex).1 (.inl rfl)).2 2 (by decide) rfl⟩

end FeatureToggles.RuleText
