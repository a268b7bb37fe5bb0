import FeatureToggles.Proofs.MovedTokens

/-!
# Texts with white space between them

White space ends every token, and no text behind it changes what stands in front. So the tokens of two texts
with white space between them are those of the first, and then those of the second in their new places. A
text can be written anew with its tokens a space apart.
-/

namespace FeatureToggles.RuleText

open Decimal (natText)
open Unicode (isBlank)

variable {position : Nat} {cs more span : List CodePoint} {kind : TokenKind} {ts : List Token}

/-- A token that ends where the text does ends where white space follows as well. -/
theorem TokenKind.Ends.append (h : kind.Ends span cs) (hmore : BlankAhead more) :
    kind.Ends span (cs ++ more) := by
  cases cs with
  | nil => exact hmore.ends kind span
  | cons c cs => exact h

/-- The tokens of a text that starts with one are this token and those of the rest. -/
theorem exists_of_lexFrom_ok {value after : List CodePoint} (hshape : kind.HasShape span value)
    (hends : kind.Ends span after) (h : lexFrom position (span ++ after) = .ok ts) :
    ∃ us, lexFrom (position + span.length) after = .ok us ∧
      ts = ⟨kind, Text.ofList value, position⟩ :: us := by
  rw [lexFrom_of_hasShape hshape hends] at h
  cases hafter : lexFrom (position + span.length) after with
  | error error =>
    rw [hafter] at h
    cases h
  | ok us =>
    rw [hafter] at h
    cases h
    exact ⟨us, rfl, rfl⟩

/-- What follows behind white space changes nothing in the tokens in front of it. -/
theorem lexFrom_append (h : lexFrom position cs = .ok ts) (hmore : BlankAhead more) :
    lexFrom position (cs ++ more) = (lexFrom (position + cs.length) more).map (ts ++ ·) := by
  induction cs using text_induction generalizing position ts with
  | nil =>
    rw [lexFrom, Except.ok.injEq] at h
    subst h
    show lexFrom position more = (lexFrom position more).map id
    cases lexFrom position more <;> rfl
  | blank c rest hblank ih =>
    rw [lexFrom_of_isBlank hblank] at h
    rw [List.cons_append, lexFrom_of_isBlank hblank, ih h, List.length_cons, Nat.add_right_comm,
      Nat.add_assoc]
  | token kind span value after hshape hends ih =>
    obtain ⟨us, hafter, rfl⟩ := exists_of_lexFrom_ok hshape hends h
    rw [List.append_assoc, lexFrom_of_hasShape hshape (hends.append hmore), ih hafter,
      List.length_append, ← Nat.add_assoc]
    cases lexFrom (position + span.length + after.length) more <;> rfl
  | stuck cs fault hstuck =>
    rw [lexFrom_of_stuck hstuck] at h
    cases h

/-- White space is skipped. -/
theorem lexFrom_blanks {blanks : List CodePoint} (h : ∀ c ∈ blanks, isBlank c = true) (position : Nat)
    (cs : List CodePoint) : lexFrom position (blanks ++ cs) = lexFrom (position + blanks.length) cs := by
  induction blanks generalizing position with
  | nil => rfl
  | cons c blanks ih =>
    obtain ⟨hc, hblanks⟩ := List.forall_mem_cons.1 h
    rw [List.cons_append, lexFrom_of_isBlank hc, ih hblanks, List.length_cons, Nat.add_right_comm,
      Nat.add_assoc]

/-- The tokens of the first text are followed by those of the second, moved. -/
theorem lex_append {s w t : Text} (h : lex s = .ok ts) (hne : w.toList ≠ [])
    (hblank : ∀ c ∈ w.toList, isBlank c = true) :
    lex (s ++ w ++ t) = (((lex t).map (List.map (Token.moved (· + (s.length + w.length))))).mapError
      (Error.moved (· + (s.length + w.length)))).map (ts ++ ·) := by
  have hahead : BlankAhead (w.toList ++ t.toList) := by
    obtain ⟨c, cs, hw⟩ := List.exists_cons_of_ne_nil hne
    rw [hw] at hblank ⊢
    rintro d ⟨⟩
    exact hblank c List.mem_cons_self
  rw [lex] at h
  rw [lex, Text.toList_append, Text.toList_append, List.append_assoc, lexFrom_append h hahead,
    lexFrom_blanks hblank, Text.length_toList, Text.length_toList, Nat.add_assoc, lexFrom_add, lex]

/-! ### Written anew -/

/-- A token with some shape is read back from its own text, which is this shape or a string quoted anew. -/
theorem TokenKind.HasShape.readsBack {value : List CodePoint} (h : kind.HasShape span value) :
    (⟨kind, Text.ofList value⟩ : Lexeme).ReadsBack := by
  by_cases hkind : kind = .string
  · subst hkind
    exact readsBack_string _
  · have hvalue : value = span := by
      cases kind with
      | string => exact absurd rfl hkind
      | _ => exact h.1
    subst hvalue
    refine readsBack_of_hasShape ?_
    rw [Lexeme.text, if_neg hkind, Text.toList_ofList]
    exact h

/-- The text of a token that was read is read back. -/
theorem readsBack_of_lexFrom (h : lexFrom position cs = .ok ts) : ∀ t ∈ ts, t.lexeme.ReadsBack := by
  induction cs using text_induction generalizing position ts with
  | nil =>
    rw [lexFrom, Except.ok.injEq] at h
    subst h
    exact fun t ht => absurd ht List.not_mem_nil
  | blank c rest hblank ih =>
    rw [lexFrom_of_isBlank hblank] at h
    exact ih h
  | token kind span value after hshape hends ih =>
    obtain ⟨us, hafter, rfl⟩ := exists_of_lexFrom_ok hshape hends h
    exact List.forall_mem_cons.2 ⟨hshape.readsBack, ih hafter⟩
  | stuck cs fault hstuck =>
    rw [lexFrom_of_stuck hstuck] at h
    cases h

/-- The tokens as a text, with a space between any two. -/
def respaced (tokens : List Token) : Text :=
  Text.ofList (spaced (tokens.map Token.lexeme))

/-- **White space between texts.** If a text has tokens, it has the same ones with white space and another
text behind it. The tokens of the other text follow, moved behind them, and if it has none, the same is wrong
with it in its new place. Written anew with a space between any two, the tokens are read back, and they are
the same expression as before, or the same is wrong with them. -/
theorem lex_separated {s : Text} {ts : List Token} (h : lex s = .ok ts) :
    (∀ w t : Text, w.toList ≠ [] → (∀ c ∈ w.toList, isBlank c = true) →
      (∀ vs, lex (s ++ w ++ t) = .ok vs
        ↔ ∃ us, lex t = .ok us ∧ vs = ts ++ us.map (Token.moved (· + (s.length + w.length)))) ∧
      ∀ error, lex t = .error error → ∃ moved, lex (s ++ w ++ t) = .error moved ∧
        moved.fault = error.fault ∧ moved.position = error.position + (s.length + w.length) ∧
        moved.message = error.fault.message ++ " at position "
          ++ Text.ofList (natText (error.position + (s.length + w.length)))) ∧
    ∃ us, lex (respaced ts) = .ok us ∧ us.map Token.lexeme = ts.map Token.lexeme ∧
      (parse (respaced ts)).mapError Error.fault = (parse s).mapError Error.fault := by
  refine ⟨fun w t hne hblank => ⟨fun vs => ?_, fun error herror => ?_⟩, ?_⟩
  · rw [lex_append h hne hblank]
    cases lex t with
    | error error => simp [Except.map, Except.mapError]
    | ok us => simp [Except.map, Except.mapError, eq_comm]
  · refine ⟨error.moved (· + (s.length + w.length)), ?_, rfl, rfl, rfl⟩
    rw [lex_append h hne hblank, herror]
    rfl
  · have hread : ∀ l ∈ ts.map Token.lexeme, l.ReadsBack :=
      List.forall_mem_map.2 (readsBack_of_lexFrom h)
    obtain ⟨us, hus, hlexemes⟩ := exists_lexFrom_spaced hread 0
    have hlex : lex (respaced ts) = .ok us := by
      rw [lex, respaced, Text.toList_ofList, hus]
    refine ⟨us, hlex, hlexemes, ?_⟩
    rw [parse, parse, hlex, h]
    exact parseTokens_congr hlexemes _ _

/-- A quote behind a backslash does not reach behind the white space. What is wrong there is wrong nine
characters later. -/
theorem lex_separated_escaped :
    lex (("1==\"\\\"\"" : Text) ++ " \t" ++ "&&2") = .ok [⟨.int, "1", 0⟩, ⟨.op, "==", 1⟩, ⟨.string, "\"", 3⟩,
      ⟨.op, "&&", 9⟩, ⟨.int, "2", 11⟩] ∧
    (∃ moved, lex (("1==\"\\\"\"" : Text) ++ " \t" ++ "&& +") = .error moved ∧
      moved.fault = .unexpectedChar '+' ∧ moved.position = 12) ∧
    (parse "1 == \"\\\"\"").mapError Error.fault = (parse "1==\"\\\"\"").mapError Error.fault := by
  obtain ⟨hs, ht, herror⟩ : lex "1==\"\\\"\"" = .ok [⟨.int, "1", 0⟩, ⟨.op, "==", 1⟩, ⟨.string, "\"", 3⟩] ∧
      lex "&&2" = .ok [⟨.op, "&&", 0⟩, ⟨.int, "2", 2⟩] ∧
      lex "&& +" = .error ⟨.unexpectedChar '+', 3⟩ := by
    cbv
  have hrespaced : respaced [⟨.int, "1", 0⟩, ⟨.op, "==", 1⟩, ⟨.string, "\"", 3⟩]
      = "1 == \"\\\"\"" := by
    rfl
  have hblank : ∀ c ∈ (" \t" : Text).toList, isBlank c = true := List.all_eq_true.1 (by decide +kernel)
  obtain ⟨hbehind, us, -, -, hparse⟩ := lex_separated hs
  rw [hrespaced] at hparse
  refine ⟨((hbehind " \t" "&&2" (by decide) hblank).1 _).2 ⟨_, ht, rfl⟩, ?_, hparse⟩
  obtain ⟨moved, hlex, hfault, hposition, -⟩ := (hbehind " \t" "&& +" (by decide) hblank).2 _ herror
  exact ⟨moved, hlex, hfault, hposition⟩

end FeatureToggles.RuleText
