import FeatureToggles.Proofs.TokenShapes

/-!
# Tokens read back

The text of a token is read as this token if nothing in the text behind it goes on with it. White space
never does, so tokens with white space between them are read one by one.
-/

namespace FeatureToggles.RuleText

open CodePoint (char)

open Unicode (isBlank isDigit)

/-! ### One step of lexing -/

variable {position : Nat} {c : CodePoint} {rest : List CodePoint}

theorem lexFrom_of_isBlank (h : isBlank c = true) :
    lexFrom position (c :: rest) = lexFrom (position + 1) rest := by
  rw [lexFrom, if_pos h]

theorem lexFrom_of_tokenAt {kind : TokenKind} {value after : List CodePoint} (hblank : isBlank c = false)
    (h : tokenAt c rest = .ok (kind, value, after)) :
    lexFrom position (c :: rest) = (lexFrom (position + (rest.length + 1 - after.length)) after).map
      (⟨kind, Text.ofList value, position⟩ :: ·) := by
  rw [lexFrom, if_neg (by simp [hblank])]
  split
  · next hfault =>
    rw [h] at hfault
    cases hfault
  · next htoken =>
    rw [h] at htoken
    cases htoken
    cases lexFrom (position + (rest.length + 1 - after.length)) after <;> rfl

/-- A stretch that has the shape of a token is read as one, if the text does not go on with it. -/
theorem lexFrom_of_hasShape {kind : TokenKind} {span value after : List CodePoint}
    (h : kind.HasShape span value) (hends : kind.Ends span after) (position : Nat) :
    lexFrom position (span ++ after) = (lexFrom (position + span.length) after).map
      (⟨kind, Text.ofList value, position⟩ :: ·) := by
  obtain ⟨c, cs, rfl⟩ := List.exists_cons_of_ne_nil h.ne_nil
  have hlength : (cs ++ after).length + 1 - after.length = (c :: cs).length := by
    rw [List.length_append, List.length_cons]
    omega
  rw [List.cons_append, lexFrom_of_tokenAt h.starts.isBlank_eq (tokenAt_of_hasShape h hends), hlength]

/-- Nothing is read where no token stands. -/
theorem lexFrom_of_stuck {cs : List CodePoint} {fault : Fault} (h : Stuck cs fault) (position : Nat) :
    lexFrom position cs = .error ⟨fault, position⟩ := by
  obtain ⟨c, rest, rfl, hblank⟩ := h.exists_cons
  have herror := (tokenAt_eq_error_iff hblank).2 h
  rw [lexFrom, if_neg (by simp [hblank])]
  split
  · next hfault =>
    rw [herror] at hfault
    cases hfault
    rfl
  · next htoken =>
    rw [herror] at htoken
    cases htoken

/-- A text starts with white space, with a token, or with what is none. -/
theorem text_cases (cs : List CodePoint) : cs = [] ∨ (∃ c rest, cs = c :: rest ∧ isBlank c = true) ∨
    (∃ kind span value after, cs = span ++ after ∧ TokenKind.HasShape kind span value ∧
      kind.Ends span after) ∨ ∃ fault, Stuck cs fault := by
  cases cs with
  | nil => exact .inl rfl
  | cons c rest =>
    cases hblank : isBlank c with
    | true => exact .inr (.inl ⟨c, rest, rfl, hblank⟩)
    | false =>
      cases htoken : tokenAt c rest with
      | error fault => exact .inr (.inr (.inr ⟨fault, (tokenAt_eq_error_iff hblank).1 htoken⟩))
      | ok token =>
        obtain ⟨kind, value, after⟩ := token
        obtain ⟨span, hread⟩ := tokenAt_eq_ok_iff.1 htoken
        exact .inr (.inr (.inl ⟨kind, span, value, after, hread⟩))

/-- A text is taken apart into white space and tokens, up to what is no token. -/
@[elab_as_elim]
theorem text_induction {motive : List CodePoint → Prop} (nil : motive [])
    (blank : ∀ c rest, isBlank c = true → motive rest → motive (c :: rest))
    (token : ∀ kind span value after, TokenKind.HasShape kind span value → kind.Ends span after →
      motive after → motive (span ++ after))
    (stuck : ∀ cs fault, Stuck cs fault → motive cs) (cs : List CodePoint) : motive cs := by
  induction hn : cs.length using Nat.strong_induction_on generalizing cs with
  | _ n ih =>
    rcases text_cases cs with rfl | ⟨c, rest, rfl, hblank⟩ | ⟨kind, span, value, after, rfl, hshape, hends⟩ |
      ⟨fault, hstuck⟩
    · exact nil
    · exact blank c rest hblank (ih _ (by simp [← hn]) rest rfl)
    · have hpos := List.length_pos_iff.2 hshape.ne_nil
      rw [List.length_append] at hn
      exact token kind span value after hshape hends (ih _ (by omega) after rfl)
    · exact stuck cs fault hstuck

/-! ### White space ahead -/

/-- The text ends, or goes on with white space. -/
def BlankAhead (rest : List CodePoint) : Prop :=
  ∀ c ∈ rest.head?, isBlank c = true

theorem blankAhead_nil : BlankAhead [] :=
  fun _ hc => absurd hc (by simp)

theorem blankAhead_space (rest : List CodePoint) : BlankAhead (char ' ' :: rest) := by
  rintro c ⟨⟩
  decide +kernel

/-- White space ends every token. -/
theorem BlankAhead.ends (h : BlankAhead rest) (kind : TokenKind) (span : List CodePoint) :
    kind.Ends span rest :=
  fun c hc => kind.not_goesOn_of_isBlank span (h c hc)

/-! ### The text of a token -/

/-- What a token is, wherever it stands. -/
structure Lexeme where
  kind : TokenKind
  value : Text
  deriving DecidableEq

/-- What the token is. -/
def Token.lexeme (token : Token) : Lexeme :=
  ⟨token.kind, token.value⟩

/-- A character as it stands between quotes: behind a backslash, if it is a quote or a backslash. -/
def escapedChar (c : CodePoint) : List CodePoint :=
  if c = char '\x22' ∨ c = char '\\' then [char '\\', c] else [c]

/-- The text of a token: its value, between quotes if it is a string. -/
def Lexeme.text (lexeme : Lexeme) : List CodePoint :=
  if lexeme.kind = .string then char '\x22' :: (lexeme.value.toList.flatMap escapedChar ++ [char '\x22'])
  else lexeme.value.toList

/-- The text is read as the token, whatever follows behind white space. -/
def Lexeme.ReadsBack (lexeme : Lexeme) : Prop :=
  ∃ c cs, lexeme.text = c :: cs ∧ isBlank c = false ∧ ∀ rest, BlankAhead rest →
    tokenAt c (cs ++ rest) = .ok (lexeme.kind, lexeme.value.toList, rest)

/-- A token is read back if its text has its shape. -/
theorem readsBack_of_hasShape {l : Lexeme} (h : l.kind.HasShape l.text l.value.toList) :
    l.ReadsBack := by
  obtain ⟨c, cs, htext⟩ := List.exists_cons_of_ne_nil h.ne_nil
  rw [htext] at h
  exact ⟨c, cs, htext, h.starts.isBlank_eq, fun rest hrest =>
    tokenAt_of_hasShape h (hrest.ends l.kind (c :: cs))⟩

/-- Behind backslashes, every character stands for itself. -/
theorem unescapes_escaped (cs : List CodePoint) : Unescapes (cs.flatMap escapedChar) cs := by
  induction cs with
  | nil => exact .nil
  | cons c cs ih =>
    rw [List.flatMap_cons, escapedChar]
    by_cases hc : c = char '\x22' ∨ c = char '\\'
    · rw [if_pos hc]
      exact .escaped c ih
    · obtain ⟨hquote, hbackslash⟩ := not_or.1 hc
      rw [if_neg hc]
      exact .plain c hquote hbackslash ih

theorem readsBack_string (s : Text) : (⟨.string, s⟩ : Lexeme).ReadsBack :=
  readsBack_of_hasShape ⟨s.toList.flatMap escapedChar, rfl, unescapes_escaped s.toList⟩

theorem readsBack_groupStart : (⟨.groupStart, "("⟩ : Lexeme).ReadsBack :=
  readsBack_of_hasShape ⟨rfl, rfl⟩

theorem readsBack_groupEnd : (⟨.groupEnd, ")"⟩ : Lexeme).ReadsBack :=
  readsBack_of_hasShape ⟨rfl, rfl⟩

/-! ### Tokens with spaces between them -/

/-- The texts of tokens, with a space between any two. -/
def spaced (lexemes : List Lexeme) : List CodePoint :=
  [char ' '].intercalate (lexemes.map Lexeme.text)

theorem spaced_cons_cons (l l' : Lexeme) (ls : List Lexeme) :
    spaced (l :: l' :: ls) = l.text ++ char ' ' :: spaced (l' :: ls) := by
  rw [spaced, List.map_cons, List.map_cons, List.intercalate_cons_cons, List.append_assoc]
  rfl

theorem lexFrom_text {l : Lexeme} (h : l.ReadsBack) (position : Nat) (hrest : BlankAhead rest) :
    lexFrom position (l.text ++ rest)
      = (lexFrom (position + l.text.length) rest).map (⟨l.kind, l.value, position⟩ :: ·) := by
  obtain ⟨c, cs, htext, hblank, hread⟩ := h
  have hlength : (cs ++ rest).length + 1 - rest.length = (c :: cs).length := by
    rw [List.length_append, List.length_cons]
    omega
  rw [htext, List.cons_append, lexFrom_of_tokenAt hblank (hread rest hrest), hlength,
    Text.ofList_toList]

/-- Tokens with spaces between them are read one by one. -/
theorem exists_lexFrom_spaced {ls : List Lexeme} (h : ∀ l ∈ ls, l.ReadsBack) (position : Nat) :
    ∃ ts, lexFrom position (spaced ls) = .ok ts ∧ ts.map Token.lexeme = ls := by
  induction ls generalizing position with
  | nil => exact ⟨[], by rw [spaced, List.map_nil, List.intercalate_nil, lexFrom], rfl⟩
  | cons l ls ih =>
    obtain ⟨hl, hls⟩ := List.forall_mem_cons.1 h
    cases ls with
    | nil =>
      have htext := lexFrom_text hl position blankAhead_nil
      rw [List.append_nil, lexFrom] at htext
      refine ⟨[⟨l.kind, l.value, position⟩], ?_, rfl⟩
      rw [spaced, List.map_singleton, List.intercalate_singleton, htext]
      rfl
    | cons l' ls =>
      obtain ⟨ts, hlex, hts⟩ := ih hls (position + l.text.length + 1)
      refine ⟨⟨l.kind, l.value, position⟩ :: ts, ?_, ?_⟩
      · rw [spaced_cons_cons, lexFrom_text hl position (blankAhead_space _),
          lexFrom_of_isBlank (by decide +kernel), hlex]
        rfl
      · rw [List.map_cons, hts]
        rfl

end FeatureToggles.RuleText
