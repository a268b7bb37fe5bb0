import FeatureToggles.RuleText.Parser
import Mathlib.Data.List.DropRight

/-!
# The grammar of rule text

Which token lists are rule texts, and which tree each of them stands for:

    Or   ::= And ('||' And)*
    And  ::= Cmp ('&&' Cmp)*
    Cmp  ::= Un (('==' | '!=' | '>' | '<' | '>=' | '<=') Un)?
    Un   ::= ('!' | '!!') Un | Prim
    Prim ::= string | int | float | keyword | ident | '(' Or ')'

Apart from the grammar, every token has a nesting: the number of groups and of operators in front of
an operand that it stands in.
-/

namespace FeatureToggles.RuleText

/-- The symbols of the grammar, from the weakest binding to the strongest. -/
inductive Symbol where
  | disjunction
  | conjunction
  | comparison
  | unary
  | primary

/-- The token is the operator that is spelled so. -/
def Token.IsOperator (token : Token) (spelling : Text) : Prop :=
  token.kind = .op ∧ token.value = spelling

/-- `Derives symbol tokens e`: the tokens are of the form that the symbol stands for, and `e` is their
tree. Operands that `||` or `&&` joins nest to the left. -/
inductive Derives : Symbol → List Token → Expr → Prop where
  | conjunction {ts e} : Derives .conjunction ts e → Derives .disjunction ts e
  | or {ts us t l r} : Derives .disjunction ts l → t.IsOperator "||" → Derives .conjunction us r →
      Derives .disjunction (ts ++ t :: us) (.binary (.known .or) l r)
  | comparison {ts e} : Derives .comparison ts e → Derives .conjunction ts e
  | and {ts us t l r} : Derives .conjunction ts l → t.IsOperator "&&" → Derives .comparison us r →
      Derives .conjunction (ts ++ t :: us) (.binary (.known .and) l r)
  | unary {ts e} : Derives .unary ts e → Derives .comparison ts e
  | compare {ts us t l r} (op : BinaryOp) : Derives .unary ts l → op.isLogical = false →
      t.IsOperator op.spelling → Derives .unary us r →
      Derives .comparison (ts ++ t :: us) (.binary (.known op) l r)
  | primary {ts e} : Derives .primary ts e → Derives .unary ts e
  | sign {ts t e} (op : UnaryOp) : t.IsOperator op.spelling → Derives .unary ts e →
      Derives .unary (t :: ts) (.unary (.known op) e)
  | string (s : Text) (position : Nat) :
      Derives .primary [⟨.string, s, position⟩] (.literal (.string s))
  | int {n : Int} (s : Text) (position : Nat) : intOf? s.toList = some n →
      Derives .primary [⟨.int, s, position⟩] (.literal (.int n))
  | float {x : Binary64} (s : Text) (position : Nat) : floatOf? s.toList = some x →
      Derives .primary [⟨.float, s, position⟩] (.literal (.float x))
  | keyword (s : Text) (position : Nat) :
      Derives .primary [⟨.keyword, s, position⟩] (.literal (.bool (s = "true")))
  | ident (s : Text) (position : Nat) :
      Derives .primary [⟨.ident, s, position⟩] (.ident s)
  | group {ts opening closing e} : opening.kind = .groupStart → Derives .disjunction ts e →
      closing.kind = .groupEnd → Derives .primary (opening :: (ts ++ [closing])) e

/-- A token that is a number stands for a number that can be represented. -/
def Token.Converts (token : Token) : Prop :=
  (token.kind = .int → (intOf? token.value.toList).isSome) ∧
    (token.kind = .float → (floatOf? token.value.toList).isSome)

/-- An operator is no number. -/
theorem Token.IsOperator.converts {token : Token} {spelling : Text}
    (h : token.IsOperator spelling) : token.Converts := by
  simp [Token.Converts, h.1]

/-- In what the grammar derives, every number converts. -/
theorem converts_of_derives {symbol : Symbol} {ts : List Token} {e : Expr}
    (h : Derives symbol ts e) : ∀ t ∈ ts, t.Converts := by
  induction h with
  | conjunction _ ih => exact ih
  | comparison _ ih => exact ih
  | unary _ ih => exact ih
  | primary _ ih => exact ih
  | or _ ht _ ihl ihr =>
    exact List.forall_mem_append.2 ⟨ihl, List.forall_mem_cons.2 ⟨ht.converts, ihr⟩⟩
  | and _ ht _ ihl ihr =>
    exact List.forall_mem_append.2 ⟨ihl, List.forall_mem_cons.2 ⟨ht.converts, ihr⟩⟩
  | compare op _ _ ht _ ihl ihr =>
    exact List.forall_mem_append.2 ⟨ihl, List.forall_mem_cons.2 ⟨ht.converts, ihr⟩⟩
  | sign op ht _ ih => exact List.forall_mem_cons.2 ⟨ht.converts, ih⟩
  | string s position => simp [Token.Converts]
  | int s position hn => simp [Token.Converts, hn]
  | float s position hx => simp [Token.Converts, hx]
  | keyword s position => simp [Token.Converts]
  | ident s position => simp [Token.Converts]
  | group ho _ hc ih =>
    refine List.forall_mem_cons.2 ⟨by simp [Token.Converts, ho], ?_⟩
    exact List.forall_mem_append.2 ⟨ih, by simp [Token.Converts, hc]⟩

/-! ### Nesting -/

/-- What a token can open: a group, or the operand of an operator in front of it. -/
inductive Opening where
  | group
  | operand
  deriving DecidableEq

/-- What a token opens. -/
def Opening.of? (token : Token) : Option Opening :=
  match token.kind with
  | .groupStart => some .group
  | .op => if token.value = "!" ∨ token.value = "!!" then some .operand else none
  | _ => none

/-- What stays open, the innermost first, when an operand is complete: the operators in front of it
are complete as well. -/
def completed (opened : List Opening) : List Opening :=
  opened.dropWhile (· = .operand)

/-- What is open after a token. -/
def openAfter (opened : List Opening) (token : Token) : List Opening :=
  match Opening.of? token with
  | some opening => opening :: opened
  | none =>
    match token.kind with
    | .op => opened
    | .groupEnd => completed opened.tail
    | _ => completed opened

/-- The number of groups and operators in front of an operand that a token stands in. A token that
opens one stands in it. -/
def nestingOf (opened : List Opening) (token : Token) : Nat :=
  match Opening.of? token with
  | some _ => opened.length + 1
  | none => opened.length

/-- The nesting of each token. -/
def nestings (opened : List Opening) : List Token → List Nat
  | [] => []
  | token :: rest => nestingOf opened token :: nestings (openAfter opened token) rest

/-- No token nests more deeply than `limit`. -/
def Within (limit : Nat) (opened : List Opening) (tokens : List Token) : Prop :=
  ∀ n ∈ nestings opened tokens, n ≤ limit

theorem within_cons {limit : Nat} {opened : List Opening} {t : Token} {ts : List Token} :
    Within limit opened (t :: ts) ↔
      nestingOf opened t ≤ limit ∧ Within limit (openAfter opened t) ts := by
  simp [Within, nestings]

theorem within_append {limit : Nat} {opened : List Opening} {ts us : List Token} :
    Within limit opened (ts ++ us) ↔
      Within limit opened ts ∧ Within limit (ts.foldl openAfter opened) us := by
  induction ts generalizing opened with
  | nil => simp [Within, nestings]
  | cons t ts ih =>
    rw [List.cons_append, within_cons, within_cons, ih, List.foldl_cons, and_assoc]

theorem completed_completed (opened : List Opening) :
    completed (completed opened) = completed opened := by
  rw [completed, completed, List.dropWhile_idempotent]

theorem completed_operand (opened : List Opening) :
    completed (.operand :: opened) = completed opened := rfl

theorem completed_group (opened : List Opening) :
    completed (.group :: opened) = .group :: opened := rfl

/-- An operator between operands opens nothing. -/
theorem of?_binary {t : Token} {op : BinaryOp} (h : t.IsOperator op.spelling) :
    Opening.of? t = none := by
  obtain ⟨hkind, hvalue⟩ := h
  simp only [Opening.of?, hkind, hvalue]
  cases op <;> rfl

theorem openAfter_binary {t : Token} {op : BinaryOp} (h : t.IsOperator op.spelling)
    (opened : List Opening) : openAfter opened t = opened := by
  simp only [openAfter, of?_binary h, h.1]

theorem nestingOf_binary {t : Token} {op : BinaryOp} (h : t.IsOperator op.spelling)
    (opened : List Opening) : nestingOf opened t = opened.length := by
  simp only [nestingOf, of?_binary h]

/-- An operator in front of an operand opens this operand. -/
theorem of?_unary {t : Token} {op : UnaryOp} (h : t.IsOperator op.spelling) :
    Opening.of? t = some .operand := by
  obtain ⟨hkind, hvalue⟩ := h
  simp only [Opening.of?, hkind, hvalue]
  cases op <;> rfl

/-- What the grammar derives closes all that it opens, and completes the operand that it is. -/
theorem foldl_openAfter_of_derives {symbol : Symbol} {ts : List Token} {e : Expr}
    (h : Derives symbol ts e) (opened : List Opening) :
    ts.foldl openAfter opened = completed opened := by
  -- what an operand leaves open is open for the operator behind it, and an operator changes nothing
  induction h generalizing opened with
  | conjunction _ ih => exact ih opened
  | comparison _ ih => exact ih opened
  | unary _ ih => exact ih opened
  | primary _ ih => exact ih opened
  | or _ ht _ ihl ihr =>
    have hop : openAfter (completed opened) _ = _ :=
      openAfter_binary (show Token.IsOperator _ BinaryOp.or.spelling from ht) _
    rw [List.foldl_append, List.foldl_cons, ihl, hop, ihr, completed_completed]
  | and _ ht _ ihl ihr =>
    have hop : openAfter (completed opened) _ = _ :=
      openAfter_binary (show Token.IsOperator _ BinaryOp.and.spelling from ht) _
    rw [List.foldl_append, List.foldl_cons, ihl, hop, ihr, completed_completed]
  | compare op _ _ ht _ ihl ihr =>
    rw [List.foldl_append, List.foldl_cons, ihl, openAfter_binary ht, ihr, completed_completed]
  | sign op ht _ ih =>
    rw [List.foldl_cons, ih, openAfter, of?_unary ht, completed_operand]
  | string s position => rfl
  | int s position _ => rfl
  | float s position _ => rfl
  | keyword s position => rfl
  | ident s position => rfl
  | group ho _ hc ih =>
    simp only [List.foldl_cons, List.foldl_append, List.foldl_nil, ih, openAfter, Opening.of?, ho, hc,
      completed_group, List.tail_cons]

/-- Two operands and the operator between them stand in the same nesting. -/
theorem within_binary {limit : Nat} {opened : List Opening} {ts us : List Token} {t : Token}
    {symbol : Symbol} {e : Expr} {op : BinaryOp} (hclosed : completed opened = opened)
    (hlimit : opened.length ≤ limit) (hl : Derives symbol ts e) (ht : t.IsOperator op.spelling) :
    Within limit opened (ts ++ t :: us) ↔ Within limit opened ts ∧ Within limit opened us := by
  rw [within_append, foldl_openAfter_of_derives hl, hclosed, within_cons, nestingOf_binary ht,
    openAfter_binary ht]
  exact and_congr_right fun _ => and_iff_right hlimit

theorem within_unary {limit : Nat} {opened : List Opening} {ts : List Token} {t : Token}
    {op : UnaryOp} (ht : t.IsOperator op.spelling) :
    Within limit opened (t :: ts) ↔
      opened.length + 1 ≤ limit ∧ Within limit (.operand :: opened) ts := by
  rw [within_cons, nestingOf, openAfter, of?_unary ht]

/-- A group stands one level deeper than what it is in; its closing token never stands deeper than its
opening one. -/
theorem within_group {limit : Nat} {opened : List Opening} {ts : List Token} {opening closing : Token}
    {e : Expr} (ho : opening.kind = .groupStart) (hts : Derives .disjunction ts e)
    (hc : closing.kind = .groupEnd) :
    Within limit opened (opening :: (ts ++ [closing])) ↔
      opened.length + 1 ≤ limit ∧ Within limit (.group :: opened) ts := by
  rw [within_cons, within_append]
  simp only [nestingOf, openAfter, Opening.of?, ho, foldl_openAfter_of_derives hts, completed_group]
  -- the closing token stands in the group that it closes
  simp only [Within, nestings, nestingOf, Opening.of?, hc, List.length_cons, List.mem_singleton,
    forall_eq]
  constructor
  · rintro ⟨hlimit, hwithin, -⟩
    exact ⟨hlimit, hwithin⟩
  · rintro ⟨hlimit, hwithin⟩
    exact ⟨hlimit, hwithin, hlimit⟩

end FeatureToggles.RuleText
