import FeatureToggles.Proofs.Lexing
import FeatureToggles.Proofs.Levels
import FeatureToggles.Proofs.NumberText
import FeatureToggles.Proofs.Parsing

/-!
# Rule text of expressions

An expression is written with parentheses only where the grammar needs them, and its text is parsed as this
expression. No text with fewer parentheses is.
-/

namespace FeatureToggles

open CodePoint (char)

open RuleText (Derives Lexeme Opening Symbol Token Within completed spaced)

/-! ### Precedence -/

namespace RuleText.Symbol

/-- How strongly a symbol binds. -/
def rank : Symbol → Nat
  | disjunction => 0
  | conjunction => 1
  | comparison => 2
  | unary => 3
  | primary => 4

/-- The symbol that binds just more weakly, if there is one. -/
def looser : Symbol → Symbol
  | disjunction => disjunction
  | conjunction => disjunction
  | comparison => conjunction
  | unary => comparison
  | primary => unary

theorem eq_of_rank_eq {s s' : Symbol} (h : s.rank = s'.rank) : s = s' := by
  cases s <;> cases s' <;> first | rfl | exact absurd h (by decide)

theorem rank_looser (s : Symbol) : s.looser.rank = s.rank - 1 := by
  cases s <;> rfl

end RuleText.Symbol

namespace BinaryOp

/-- What an operator makes of its operands. -/
def symbol : BinaryOp → Symbol
  | or => .disjunction
  | and => .conjunction
  | _ => .comparison

/-- What stands to the left of an operator. -/
def leftSymbol : BinaryOp → Symbol
  | or => .disjunction
  | and => .conjunction
  | _ => .unary

/-- What stands to the right of an operator. -/
def rightSymbol : BinaryOp → Symbol
  | or => .conjunction
  | and => .comparison
  | _ => .unary

end BinaryOp

theorem RuleText.Derives.loosen {s : Symbol} {ts : List Token} {e : Expr} (h : Derives s ts e) :
    Derives s.looser ts e := by
  cases s with
  | disjunction => exact h
  | conjunction => exact .conjunction h
  | comparison => exact .comparison h
  | unary => exact .unary h
  | primary => exact .primary h

/-- What binds strongly can stand where something that binds weakly is looked for. -/
theorem RuleText.Derives.weaken {s s' : Symbol} {ts : List Token} {e : Expr} (h : Derives s' ts e)
    (hrank : s.rank ≤ s'.rank) : Derives s ts e := by
  induction hn : s'.rank - s.rank generalizing s' with
  | zero =>
    obtain rfl : s = s' := Symbol.eq_of_rank_eq (by omega)
    exact h
  | succ n ih =>
    have hlooser := s'.rank_looser
    exact ih h.loosen (by omega) (by omega)

theorem RuleText.derives_binary {op : BinaryOp} {ts us : List Token} {t : Token} {l r : Expr}
    (hl : Derives op.leftSymbol ts l) (ht : t.IsOperator op.spelling)
    (hr : Derives op.rightSymbol us r) :
    Derives op.symbol (ts ++ t :: us) (.binary (.known op) l r) := by
  cases op with
  | or => exact .or hl ht hr
  | and => exact .and hl ht hr
  | _ => exact .compare _ hl rfl ht hr

namespace Expr

/-! ### Writing -/

/-- The token of a literal. -/
def literalLexeme : Literal → Lexeme
  | .string s => ⟨.string, s⟩
  | .int n => ⟨.int, Text.ofList (Decimal.intText n)⟩
  | .float x => ⟨.float, Text.ofList (Decimal.floatText .plain x)⟩
  | .bool b => ⟨.keyword, if b then "true" else "false"⟩

/-- What is of the form `own`, in parentheses if something that binds more strongly is needed. -/
def enclosed (needed own : Symbol) (lexemes : List Lexeme) : List Lexeme :=
  if own.rank < needed.rank then ⟨.groupStart, "("⟩ :: (lexemes ++ [⟨.groupEnd, ")"⟩]) else lexemes

/-- The tokens of an expression where `needed` is looked for. An operator that is not known has no place in
the grammar, and is written like a comparison. -/
def written (needed : Symbol) : Expr → List Lexeme
  | literal value => [literalLexeme value]
  | ident name => [⟨.ident, name⟩]
  | binary (.known op) left right =>
    enclosed needed op.symbol
      (written op.leftSymbol left ++ ⟨.op, op.spelling⟩ :: written op.rightSymbol right)
  | binary (.other text _) left right => written .unary left ++ ⟨.op, text⟩ :: written .unary right
  | unary op operand => enclosed needed .unary (⟨.op, op.text⟩ :: written .unary operand)

/-- The text of an expression, with a space between any two tokens. -/
def ruleText (e : Expr) : Text :=
  Text.ofList (spaced (e.written .disjunction))

/-- Whether a name is one in rule text. -/
def IsName (name : Text) : Prop :=
  ∃ c rest, name.toList = c :: rest ∧ RuleText.isWordStart c = true ∧
    (∀ d ∈ rest, RuleText.isWordPart d = true) ∧ name ≠ "true" ∧ name ≠ "false"

/-- Whether an expression can be written as rule text: its operators are known, its names are words, and
its numbers are integers that are not negative and not too long. -/
def IsWritable : Expr → Prop
  | literal (.string _) => True
  | literal (.int n) => 0 ≤ n ∧ (Decimal.digits n.natAbs).length ≤ Decimal.maxIntegerDigits
  | literal (.float _) => False
  | literal (.bool _) => True
  | ident name => IsName name
  | binary op left right => (∃ known, op = .known known) ∧ left.IsWritable ∧ right.IsWritable
  | unary op operand => (∃ known, op = .known known) ∧ operand.IsWritable

/-! ### The tokens that are written -/

theorem digitChar_spec {d : ℕ} (h : d < 10) :
    RuleText.isWordStart (Decimal.digitChar d) = false ∧
      Unicode.isDigit (Decimal.digitChar d) = true ∧ Decimal.digitChar d ≠ char '_' ∧
      Unicode.decimalValue? (Decimal.digitChar d) = some d := by
  have hall : ∀ d : Fin 10, RuleText.isWordStart (Decimal.digitChar d) = false ∧
      Unicode.isDigit (Decimal.digitChar d) = true ∧ Decimal.digitChar d ≠ char '_' ∧
      Unicode.decimalValue? (Decimal.digitChar d) = some d.val := by
    decide +kernel
  exact hall ⟨d, h⟩

theorem intText_of_nonneg {n : ℤ} (h : 0 ≤ n) :
    Decimal.intText n = (Decimal.digits n.natAbs).map Decimal.digitChar := by
  obtain ⟨m, rfl⟩ := Int.eq_ofNat_of_zero_le h
  rfl

theorem digitValues?_map_digitChar {ds : List ℕ} (h : ∀ d ∈ ds, d < 10) :
    RuleText.digitValues? (ds.map Decimal.digitChar) = some ds := by
  have hfilter : (ds.map Decimal.digitChar).filter (· ≠ char '_') = ds.map Decimal.digitChar := by
    rw [List.filter_eq_self]
    intro c hc
    obtain ⟨d, hd, rfl⟩ := List.mem_map.1 hc
    simpa using (digitChar_spec (h d hd)).2.2.1
  rw [RuleText.digitValues?, hfilter]
  clear hfilter
  induction ds with
  | nil => rfl
  | cons d ds ih =>
    obtain ⟨hd, hds⟩ := List.forall_mem_cons.1 h
    rw [List.map_cons, List.mapM_cons, (digitChar_spec hd).2.2.2, ih hds]
    rfl

/-- The text of an integer stands for it. -/
theorem intOf?_intText {n : ℤ} (h : 0 ≤ n)
    (hn : (Decimal.digits n.natAbs).length ≤ Decimal.maxIntegerDigits) :
    RuleText.intOf? (Decimal.intText n) = some n := by
  have hvalue := Decimal.Numeral.toInt?_ofInt hn
  have hdigits := digitValues?_map_digitChar fun _ => Decimal.lt_ten_of_mem_digits (n := n.natAbs)
  have hsign : decide (n < 0) = false := decide_eq_false (by omega)
  rw [Decimal.Numeral.ofInt, hsign] at hvalue
  rw [RuleText.intOf?, intText_of_nonneg h, hdigits]
  exact hvalue

theorem readsBack_literal {value : Literal} (h : (literal value).IsWritable) :
    (literalLexeme value).ReadsBack := by
  cases value with
  | string s => exact RuleText.readsBack_string s
  | float x => exact absurd h not_false
  | bool b =>
    cases b with
    | true => exact RuleText.readsBack_of_hasShape ⟨rfl, .inl rfl⟩
    | false => exact RuleText.readsBack_of_hasShape ⟨rfl, .inr rfl⟩
  | int n =>
    obtain ⟨hn, -⟩ := h
    cases hdigits : Decimal.digits n.natAbs with
    | nil => exact absurd hdigits (Decimal.digits_ne_nil _)
    | cons d ds =>
      have hlt : ∀ x ∈ d :: ds, x < 10 := fun x hx => by
        rw [← hdigits] at hx
        exact Decimal.lt_ten_of_mem_digits hx
      have hdigit := (digitChar_spec (hlt d List.mem_cons_self)).2.1
      have htext : (Text.ofList (Decimal.intText n)).toList
          = Decimal.digitChar d :: ds.map Decimal.digitChar := by
        rw [Text.toList_ofList, intText_of_nonneg hn, hdigits, List.map_cons]
      refine RuleText.readsBack_of_hasShape ⟨rfl, _, _, htext, hdigit, fun c hc => ?_⟩
      obtain ⟨x, hx, rfl⟩ := List.mem_map.1 hc
      exact RuleText.isNumberPart_of_isDigit (digitChar_spec (hlt x (List.mem_cons_of_mem d hx))).2.1

theorem readsBack_name {name : Text} (h : IsName name) : (⟨.ident, name⟩ : Lexeme).ReadsBack := by
  obtain ⟨c, rest, hc, hstart, hrest, htrue, hfalse⟩ := h
  refine RuleText.readsBack_of_hasShape ⟨rfl, ⟨c, rest, hc, hstart, hrest⟩, ?_, ?_⟩
  · exact fun heq => htrue (Text.toList_inj.1 heq)
  · exact fun heq => hfalse (Text.toList_inj.1 heq)

theorem readsBack_binary (op : BinaryOp) : (⟨.op, op.spelling⟩ : Lexeme).ReadsBack := by
  have htext : RuleText.IsOperatorText op.spelling.toList := by
    cases op <;> decide
  exact RuleText.readsBack_of_hasShape ⟨rfl, htext⟩

theorem readsBack_unary (op : UnaryOp) : (⟨.op, op.spelling⟩ : Lexeme).ReadsBack := by
  have htext : RuleText.IsOperatorText op.spelling.toList := by
    cases op <;> decide
  exact RuleText.readsBack_of_hasShape ⟨rfl, htext⟩

theorem readsBack_enclosed {needed own : Symbol} {ls : List Lexeme} (h : ∀ l ∈ ls, l.ReadsBack) :
    ∀ l ∈ enclosed needed own ls, l.ReadsBack := by
  rw [enclosed]
  split
  · refine List.forall_mem_cons.2 ⟨RuleText.readsBack_groupStart, List.forall_mem_append.2 ⟨h, ?_⟩⟩
    exact List.forall_mem_singleton.2 RuleText.readsBack_groupEnd
  · exact h

/-- Every token of a written expression reads back. -/
theorem readsBack_written {e : Expr} (h : e.IsWritable) (needed : Symbol) :
    ∀ l ∈ e.written needed, l.ReadsBack := by
  induction e generalizing needed with
  | literal value => exact List.forall_mem_singleton.2 (readsBack_literal h)
  | ident name => exact List.forall_mem_singleton.2 (readsBack_name h)
  | binary op left right ihl ihr =>
    obtain ⟨⟨known, rfl⟩, hl, hr⟩ := h
    refine readsBack_enclosed (List.forall_mem_append.2 ⟨ihl hl _, ?_⟩)
    exact List.forall_mem_cons.2 ⟨readsBack_binary known, ihr hr _⟩
  | unary op operand ih =>
    obtain ⟨⟨known, rfl⟩, hoperand⟩ := h
    exact readsBack_enclosed (List.forall_mem_cons.2 ⟨readsBack_unary known, ih hoperand _⟩)

/-! ### The tokens read -/

theorem eq_of_lexeme {t : Token} {l : Lexeme} (h : t.lexeme = l) :
    t = ⟨l.kind, l.value, t.position⟩ := by
  rw [← h]
  rfl

/-- What is written as an operator is one. -/
theorem isOperator_of_lexeme {t : Token} {spelling : Text} (h : t.lexeme = ⟨.op, spelling⟩) :
    t.IsOperator spelling := by
  rw [eq_of_lexeme h]
  exact ⟨rfl, rfl⟩

theorem derives_literal {value : Literal} (h : (literal value).IsWritable) {t : Token}
    (ht : t.lexeme = literalLexeme value) : Derives .primary [t] (literal value) := by
  rw [eq_of_lexeme ht]
  cases value with
  | string s => exact .string s t.position
  | float x => exact absurd h not_false
  | int n =>
    refine .int _ t.position ?_
    rw [literalLexeme, Text.toList_ofList]
    exact intOf?_intText h.1 h.2
  | bool b =>
    have hread := Derives.keyword (if b then "true" else "false") t.position
    cases b <;> exact hread

/-- The tokens derive the expression where `needed` is looked for, and nest no deeper than the expression is
high. An operator in front of an operand may wait for it only where no operators between operands follow. -/
structure Writes (needed : Symbol) (e : Expr) (ts : List Token) : Prop where
  derives : Derives needed ts e
  within : ∀ {limit : ℕ} {opened : List Opening}, opened.length + e.height ≤ limit + 1 →
    (needed.rank < Symbol.unary.rank → completed opened = opened) → Within limit opened ts

variable {needed : Symbol} {e : Expr} {t : Token} {ts us : List Token}

theorem writes_leaf (h : Derives .primary [t] e) (hneeded : needed.rank ≤ Symbol.unary.rank) :
    Writes needed e [t] where
  derives := h.weaken (Nat.le_trans hneeded (by decide))
  within hheight _ := by
    have hpos := e.height_pos
    exact RuleText.within_leaf (by omega) h

/-- Operands of an operator stand one level below it. -/
theorem within_operands {op : BinaryOp} {l r : Expr} (hl : Writes op.leftSymbol l ts)
    (ht : t.IsOperator op.spelling) (hr : Writes op.rightSymbol r us) {limit : ℕ}
    {opened : List Opening} (hclosed : completed opened = opened)
    (hheight : opened.length + max l.height r.height ≤ limit + 1) :
    Within limit opened (ts ++ t :: us) := by
  have hpos := l.height_pos
  refine (RuleText.within_binary hclosed (by omega) hl.derives ht).2 ⟨?_, ?_⟩
  · exact hl.within (by omega) fun _ => hclosed
  · exact hr.within (by omega) fun _ => hclosed

theorem writes_binary {op : BinaryOp} {l r : Expr} (hl : Writes op.leftSymbol l ts)
    (ht : t.IsOperator op.spelling) (hr : Writes op.rightSymbol r us)
    (hneeded : needed.rank ≤ op.symbol.rank) :
    Writes needed (.binary (.known op) l r) (ts ++ t :: us) where
  derives := (RuleText.derives_binary hl.derives ht hr.derives).weaken hneeded
  within hheight hclosed := by
    have hrank : op.symbol.rank < Symbol.unary.rank := by cases op <;> decide
    rw [height] at hheight
    exact within_operands hl ht hr (hclosed (Nat.lt_of_le_of_lt hneeded hrank)) (by omega)

/-- A group takes a level of the nesting, and the operator in it one of the height. -/
theorem writes_group {op : BinaryOp} {l r : Expr} {opening closing : Token}
    (ho : opening.kind = .groupStart) (hl : Writes op.leftSymbol l ts) (ht : t.IsOperator op.spelling)
    (hr : Writes op.rightSymbol r us) (hc : closing.kind = .groupEnd) :
    Writes needed (.binary (.known op) l r) (opening :: ((ts ++ t :: us) ++ [closing])) := by
  have hinner : Derives .disjunction (ts ++ t :: us) (.binary (.known op) l r) :=
    (RuleText.derives_binary hl.derives ht hr.derives).weaken (Nat.zero_le _)
  refine ⟨(Derives.group ho hinner hc).weaken (by cases needed <;> decide), ?_⟩
  -- both are counted once: the operands are a level lower, and nest a level deeper
  intro limit opened hheight _
  have hpos := l.height_pos
  rw [height] at hheight
  refine (RuleText.within_group ho hinner hc).2 ⟨by omega, ?_⟩
  refine within_operands hl ht hr (RuleText.completed_group opened) ?_
  rw [List.length_cons]
  omega

theorem writes_unary {op : UnaryOp} (ht : t.IsOperator op.spelling) (h : Writes .unary e ts)
    (hneeded : needed.rank ≤ Symbol.unary.rank) : Writes needed (.unary (.known op) e) (t :: ts) where
  derives := (Derives.sign op ht h.derives).weaken hneeded
  within {limit opened} hheight _ := by
    have hpos := e.height_pos
    rw [height] at hheight
    refine (RuleText.within_unary ht).2 ⟨by omega, h.within ?_ fun hlt => absurd hlt (Nat.lt_irrefl _)⟩
    rw [List.length_cons]
    omega

/-- Tokens that are what is written, wherever they stand, are read as what was written. -/
theorem writes_written (h : e.IsWritable) (hneeded : needed.rank ≤ Symbol.unary.rank)
    (hts : ts.map Token.lexeme = e.written needed) : Writes needed e ts := by
  induction e generalizing needed ts with
  | literal value =>
    obtain ⟨t, rfl, ht⟩ := List.map_eq_singleton_iff.1 hts
    exact writes_leaf (derives_literal h ht) hneeded
  | ident name =>
    obtain ⟨t, rfl, ht⟩ := List.map_eq_singleton_iff.1 hts
    rw [eq_of_lexeme ht]
    exact writes_leaf (.ident name t.position) hneeded
  | binary op l r ihl ihr =>
    obtain ⟨⟨known, rfl⟩, hl, hr⟩ := h
    -- with parentheses or without, the operands and the operator are the same tokens
    have hoperands {us : List Token} (hus : us.map Token.lexeme = l.written known.leftSymbol
        ++ ⟨.op, known.spelling⟩ :: r.written known.rightSymbol) :
        ∃ ls t rs, us = ls ++ t :: rs ∧ Writes known.leftSymbol l ls ∧ t.IsOperator known.spelling ∧
          Writes known.rightSymbol r rs := by
      obtain ⟨ls, tail, rfl, hls, htail⟩ := List.map_eq_append_iff.1 hus
      obtain ⟨t, rs, rfl, ht, hrs⟩ := List.map_eq_cons_iff.1 htail
      exact ⟨ls, t, rs, rfl, ihl hl (by cases known <;> decide) hls, isOperator_of_lexeme ht,
        ihr hr (by cases known <;> decide) hrs⟩
    rw [written, enclosed] at hts
    split at hts
    · obtain ⟨opening, tail, rfl, hopening, htail⟩ := List.map_eq_cons_iff.1 hts
      obtain ⟨us, last, rfl, hus, hlast⟩ := List.map_eq_append_iff.1 htail
      obtain ⟨closing, rfl, hclosing⟩ := List.map_eq_singleton_iff.1 hlast
      obtain ⟨ls, t, rs, rfl, hls, ht, hrs⟩ := hoperands hus
      exact writes_group (congrArg Lexeme.kind hopening) hls ht hrs (congrArg Lexeme.kind hclosing)
    · next hrank =>
      obtain ⟨ls, t, rs, rfl, hls, ht, hrs⟩ := hoperands hts
      exact writes_binary hls ht hrs (Nat.le_of_not_lt hrank)
  | unary op e ih =>
    obtain ⟨⟨known, rfl⟩, he⟩ := h
    rw [written, enclosed, if_neg (Nat.not_lt.2 hneeded)] at hts
    obtain ⟨t, us, rfl, ht, hus⟩ := List.map_eq_cons_iff.1 hts
    exact writes_unary (isOperator_of_lexeme ht) (ih he (Nat.le_refl _) hus) hneeded

/-! ### Parentheses -/

/-- The number of groups. -/
def groups (lexemes : List Lexeme) : ℕ :=
  lexemes.countP (·.kind = .groupStart)

@[simp]
theorem groups_cons (l : Lexeme) (ls : List Lexeme) :
    groups (l :: ls) = groups ls + if l.kind = .groupStart then 1 else 0 := by
  rw [groups, List.countP_cons]
  simp [groups]

@[simp]
theorem groups_append (ls ms : List Lexeme) : groups (ls ++ ms) = groups ls + groups ms :=
  List.countP_append

theorem groups_enclosed (needed own : Symbol) (ls : List Lexeme) :
    groups (enclosed needed own ls) = groups ls + if own.rank < needed.rank then 1 else 0 := by
  rw [enclosed]
  split <;> simp [groups]

/-- Where less is needed, no more groups are. -/
theorem groups_written_mono {needed' : Symbol} (h : needed.rank ≤ needed'.rank) (e : Expr) :
    groups (e.written needed) ≤ groups (e.written needed') := by
  have henclosed (own : Symbol) (ls : List Lexeme) :
      groups (enclosed needed own ls) ≤ groups (enclosed needed' own ls) := by
    rw [groups_enclosed, groups_enclosed]
    split <;> split <;> omega
  cases e with
  | literal value => exact Nat.le_refl _
  | ident name => exact Nat.le_refl _
  | binary op l r =>
    cases op with
    | known op => exact henclosed _ _
    | other text _ => exact Nat.le_refl _
  | unary op e => exact henclosed _ _

/-- One group is enough to have an expression stand anywhere. -/
theorem groups_written_le (needed : Symbol) (e : Expr) :
    groups (e.written needed) ≤ groups (e.written .disjunction) + 1 := by
  have henclosed (own : Symbol) (ls : List Lexeme) :
      groups (enclosed needed own ls) ≤ groups (enclosed .disjunction own ls) + 1 := by
    rw [groups_enclosed, groups_enclosed]
    split <;> omega
  cases e with
  | literal value => exact Nat.le_succ _
  | ident name => exact Nat.le_succ _
  | binary op l r =>
    cases op with
    | known op => exact henclosed _ _
    | other text _ => exact Nat.le_succ _
  | unary op e => exact henclosed _ _

theorem groups_operator {spelling : Text} (ht : t.IsOperator spelling) (ls : List Token) :
    groups ((t :: ls).map Token.lexeme) = groups (ls.map Token.lexeme) := by
  rw [List.map_cons, groups_cons, if_neg]
  · rfl
  · show t.kind ≠ .groupStart
    simp [ht.1]

theorem groups_binary_le (op : BinaryOp) {l r : Expr}
    (hl : groups (l.written op.leftSymbol) ≤ groups (ts.map Token.lexeme))
    (ht : t.IsOperator op.spelling)
    (hr : groups (r.written op.rightSymbol) ≤ groups (us.map Token.lexeme)) :
    groups ((binary (.known op) l r).written op.symbol)
      ≤ groups ((ts ++ t :: us).map Token.lexeme) := by
  simp only [written, groups_enclosed, groups_append, groups_cons, groups_operator ht, List.map_append,
    Nat.lt_irrefl, reduceCtorEq, if_false, Nat.add_zero]
  exact Nat.add_le_add hl hr

/-- No tokens with fewer groups than are written derive the expression. -/
theorem groups_written_le_of_derives {symbol : Symbol} (h : Derives symbol ts e) :
    groups (e.written symbol) ≤ groups (ts.map Token.lexeme) := by
  induction h with
  | conjunction _ ih => exact Nat.le_trans (groups_written_mono (by decide) _) ih
  | comparison _ ih => exact Nat.le_trans (groups_written_mono (by decide) _) ih
  | unary _ ih => exact Nat.le_trans (groups_written_mono (by decide) _) ih
  | primary _ ih => exact Nat.le_trans (groups_written_mono (by decide) _) ih
  | or _ ht _ ihl ihr => exact groups_binary_le .or ihl ht ihr
  | and _ ht _ ihl ihr => exact groups_binary_le .and ihl ht ihr
  | compare op _ hlogical ht _ ihl ihr =>
    cases op with
    | or => cases hlogical
    | and => cases hlogical
    | _ => exact groups_binary_le _ ihl ht ihr
  | sign op ht _ ih =>
    rw [written, groups_enclosed, if_neg (Nat.lt_irrefl _), groups_cons, groups_operator ht]
    exact ih
  | @group ts opening closing e ho _ hc ih =>
    have hopening : opening.lexeme.kind = .groupStart := ho
    have hle := groups_written_le .primary e
    rw [List.map_cons, groups_cons, if_pos hopening, List.map_append, groups_append]
    omega
  | string s position => exact Nat.zero_le _
  | int s position _ => exact Nat.zero_le _
  | float s position _ => exact Nat.zero_le _
  | keyword s position => exact Nat.zero_le _
  | ident s position => exact Nat.zero_le _

theorem groups_lexemes (ts : List Token) :
    groups (ts.map Token.lexeme) = ts.countP (·.kind = .groupStart) := by
  rw [groups, List.countP_map]
  rfl

/-- **Writing.** An expression of at most 64 levels whose operators are known, whose names are words, and
whose numbers are integers that are not negative and not too long is what its text is parsed as. Its text
has the fewest groups of all texts that are parsed so. -/
theorem parse_ruleText {e : Expr} (h : e.IsWritable) (hdepth : e.depth ≤ 64) :
    RuleText.parse e.ruleText = .ok e ∧
    ∀ (text : Text) (ts us : List Token), RuleText.lex e.ruleText = .ok ts →
      RuleText.parse text = .ok e → RuleText.lex text = .ok us →
      ts.countP (·.kind = .groupStart) ≤ us.countP (·.kind = .groupStart) := by
  obtain ⟨tokens, hlex, htokens⟩ :=
    RuleText.exists_lexFrom_spaced (readsBack_written h .disjunction) 0
  have hlex' : RuleText.lex e.ruleText = .ok tokens := by
    rw [RuleText.lex, ruleText, Text.toList_ofList, hlex]
  refine ⟨?_, fun text ts us hts hparse hus => ?_⟩
  · -- the tree is at most as high as the nesting may be, and so the text does not nest too deeply
    have hwrites := writes_written h (by decide) htokens
    have hwithin : Within maxDepth [] tokens := by
      refine hwrites.within ?_ fun _ => rfl
      rw [← depth_eq_height, List.length_nil, Nat.zero_add]
      exact Nat.le_succ_of_le hdepth
    rw [RuleText.parse, hlex']
    exact RuleText.parseTokens_eq_ok_iff.2
      ⟨RuleText.reads_disjunction_iff.2 ⟨hwrites.derives, hwithin⟩, hdepth⟩
  · rw [hlex', Except.ok.injEq] at hts
    subst hts
    obtain ⟨us', hus', hderives, -⟩ := RuleText.derives_of_parse hparse
    rw [hus, Except.ok.injEq] at hus'
    subst hus'
    have hle := groups_written_le_of_derives hderives
    rwa [← htokens, groups_lexemes, groups_lexemes] at hle

/-- Negations side by side, a comparison in a comparison, and a string with a quote and a backslash. -/
def nestedRule : Expr :=
  .binary (.known .and)
    (.binary (.known .or) (.ident "a") (.unary (.known .not) (.unary (.known .not) (.ident "b"))))
    (.binary (.known .equal) (.literal (.string "\"\\"))
      (.binary (.known .greater) (.literal (.int 7)) (.literal (.bool true))))

/-- Negations do not run together, and operands that bind too weakly stand in parentheses. -/
theorem parse_ruleText_nested :
    RuleText.parse "( a || ! ! b ) && \"\\\"\\\\\" == ( 7 > true )" = .ok nestedRule := by
  have ha : IsName "a" := ⟨'a', [], rfl, by decide +kernel, by simp, by decide, by decide⟩
  have hb : IsName "b" := ⟨'b', [], rfl, by decide +kernel, by simp, by decide, by decide⟩
  have hdigits : Decimal.digits 7 = [7] := by
    rw [Decimal.digits, Decimal.digitsOnto, if_pos (by decide)]
  have hlength : (Decimal.digits (7 : ℤ).natAbs).length ≤ Decimal.maxIntegerDigits := by
    show (Decimal.digits 7).length ≤ Decimal.maxIntegerDigits
    rw [hdigits]
    decide
  have hwritable : nestedRule.IsWritable :=
    ⟨⟨_, rfl⟩, ⟨⟨_, rfl⟩, ha, ⟨_, rfl⟩, ⟨_, rfl⟩, hb⟩, ⟨_, rfl⟩, trivial, ⟨_, rfl⟩, ⟨by decide, hlength⟩,
      trivial⟩
  have hdepth : nestedRule.depth ≤ 64 := by
    rw [depth_eq_height]
    decide
  have htext : nestedRule.ruleText = "( a || ! ! b ) && \"\\\"\\\\\" == ( 7 > true )" := by
    have hseven : Decimal.intText 7 = [char '7'] := by
      show (Decimal.digits 7).map Decimal.digitChar = [char '7']
      rw [hdigits]
      rfl
    rw [ruleText, nestedRule]
    simp only [written, literalLexeme, hseven]
    rfl
  rw [← htext]
  exact (parse_ruleText hwritable hdepth).1

end Expr

end FeatureToggles
