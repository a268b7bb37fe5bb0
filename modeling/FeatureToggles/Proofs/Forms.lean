import FeatureToggles.Proofs.Parsing
import FeatureToggles.Proofs.Simulations

/-!
# The grammar without limits

A token list has a form of the grammar whatever its numbers stand for, and however deep its groups and
operators nest. The parser, which keeps to limits in both, reads every list of the form unless one of its
limits is in the way.
-/

namespace FeatureToggles.RuleText

/-! ### The forms of the grammar -/

/-- The token with a number that converts in the place of the one that it holds. -/
def Token.plain (token : Token) : Token :=
  match token.kind with
  | .int => ⟨.int, "0", token.position⟩
  | .float => ⟨.float, "0.0", token.position⟩
  | _ => token

/-- The tokens are of the form that the symbol stands for, whatever numbers they hold. -/
def HasForm (symbol : Symbol) (tokens : List Token) : Prop :=
  ∃ e, Derives symbol (tokens.map Token.plain) e

variable {t : Token} {ts us : List Token} {op : BinaryOp} {inner outer : Symbol}

@[simp]
theorem Token.kind_plain (t : Token) : t.plain.kind = t.kind := by
  rw [plain]
  split <;> simp_all

theorem Token.position_plain (t : Token) : t.plain.position = t.position := by
  rw [plain]
  split <;> rfl

theorem Token.plain_of_isOperator {spelling : Text} (h : t.IsOperator spelling) : t.plain = t := by
  rw [plain, h.1]

theorem Token.plain_of_op (h : t.kind = .op) : t.plain = t :=
  plain_of_isOperator ⟨h, rfl⟩

/-- A fault that the limits of the parser bring about, and not the form of the tokens. -/
def Fault.IsLimit : Fault → Prop
  | .tooDeep => True
  | .invalidNumber _ => True
  | _ => False

/-- The kinds of tokens that stand for an expression by themselves. -/
def TokenKind.IsLeaf (kind : TokenKind) : Prop :=
  kind ≠ .op ∧ kind ≠ .groupStart ∧ kind ≠ .groupEnd

/-- Whether a token stands for an expression does not depend on the number that it holds. -/
theorem exists_leaf_plain (h : t.kind.IsLeaf) : ∃ e, leaf t.plain = .ok e := by
  obtain ⟨kind, value, position⟩ := t
  obtain ⟨hop, hstart, hend⟩ := h
  cases kind with
  | int => exact ⟨.literal (.int 0), by cbv⟩
  | float =>
    have hnumber : (floatOf? ("0.0" : Text).toList).isSome = true := by cbv
    obtain ⟨x, hx⟩ := Option.isSome_iff_exists.1 hnumber
    exact ⟨.literal (.float x), by simp only [leaf, Token.plain, hx]⟩
  | op => exact absurd rfl hop
  | groupStart => exact absurd rfl hstart
  | groupEnd => exact absurd rfl hend
  | _ => exact ⟨_, rfl⟩

theorem leaf_of_not_isLeaf (h : ¬ t.kind.IsLeaf) :
    leaf t = .error ⟨.unexpectedToken t.value, t.position⟩ := by
  obtain ⟨kind, value, position⟩ := t
  cases kind with
  | op => rfl
  | groupStart => rfl
  | groupEnd => rfl
  | _ => exact absurd (by simp [TokenKind.IsLeaf]) h

/-- Such a token is refused for its number only. -/
theorem isLimit_of_leaf {error : Error} (h : t.kind.IsLeaf) (hleaf : leaf t = .error error) :
    error.fault.IsLimit ∧ t.position = error.position := by
  obtain ⟨kind, value, position⟩ := t
  obtain ⟨hop, hstart, hend⟩ := h
  cases kind <;> simp only [leaf] at hleaf
  case int =>
    split at hleaf
    · cases hleaf
    · cases hleaf
      exact ⟨trivial, rfl⟩
  case float =>
    split at hleaf
    · cases hleaf
    · cases hleaf
      exact ⟨trivial, rfl⟩
  case op => exact absurd rfl hop
  case groupStart => exact absurd rfl hstart
  case groupEnd => exact absurd rfl hend
  all_goals cases hleaf

theorem hasForm_leaf (h : t.kind.IsLeaf) : HasForm .primary [t] := by
  obtain ⟨e, he⟩ := exists_leaf_plain h
  exact ⟨e, leaf_eq_ok_iff.1 he⟩

theorem Joins.hasForm_one (joins : Joins op inner outer) (h : HasForm inner ts) : HasForm outer ts := by
  obtain ⟨e, h⟩ := h
  exact ⟨e, joins.one h⟩

theorem Joins.hasForm_more (joins : Joins op inner outer) (hl : HasForm outer ts)
    (ht : t.IsOperator op.spelling) (hr : HasForm inner us) : HasForm outer (ts ++ t :: us) := by
  obtain ⟨l, hl⟩ := hl
  obtain ⟨r, hr⟩ := hr
  refine ⟨.binary (.known op) l r, ?_⟩
  rw [List.map_append, List.map_cons, Token.plain_of_isOperator ht]
  exact joins.more hl ht hr

theorem hasForm_comparison (h : HasForm .unary ts) : HasForm .comparison ts := by
  obtain ⟨e, h⟩ := h
  exact ⟨e, .unary h⟩

theorem hasForm_compare (hl : HasForm .unary ts) (ht : comparison? t = some op)
    (hr : HasForm .unary us) : HasForm .comparison (ts ++ t :: us) := by
  obtain ⟨l, hl⟩ := hl
  obtain ⟨r, hr⟩ := hr
  obtain ⟨hlogical, hop⟩ := comparison?_eq_some_iff.1 ht
  refine ⟨.binary (.known op) l r, ?_⟩
  rw [List.map_append, List.map_cons, Token.plain_of_isOperator hop]
  exact .compare op hl hlogical hop hr

theorem hasForm_unary (h : HasForm .primary ts) : HasForm .unary ts := by
  obtain ⟨e, h⟩ := h
  exact ⟨e, .primary h⟩

theorem hasForm_sign {op : UnaryOp} (ht : unary? t = some op) (h : HasForm .unary ts) :
    HasForm .unary (t :: ts) := by
  obtain ⟨e, h⟩ := h
  have hop := unary?_eq_some_iff.1 ht
  refine ⟨.unary (.known op) e, ?_⟩
  rw [List.map_cons, Token.plain_of_isOperator hop]
  exact .sign op hop h

theorem hasForm_group {opening closing : Token} (ho : opening.kind = .groupStart)
    (h : HasForm .disjunction ts) (hc : closing.kind = .groupEnd) :
    HasForm .primary (opening :: (ts ++ [closing])) := by
  obtain ⟨e, h⟩ := h
  refine ⟨e, ?_⟩
  rw [List.map_cons, List.map_append, List.map_singleton]
  exact .group (by simpa using ho) h (by simpa using hc)

/-! ### Reading on without limits -/

/-- Whatever `f` makes of the tokens, `f'` makes the same of them when their numbers convert, unless a
limit stops `f`: it leaves the same tokens, or stops as well. -/
structure Follows (f' f : Reader) (ts : List Token) : Prop where
  read : ∀ {e rest}, f ts = .ok (e, rest) →
    ∃ e', f' (ts.map Token.plain) = .ok (e', rest.map Token.plain)
  stops : ∀ {error}, f ts = .error error → ¬ error.fault.IsLimit →
    ∃ error', f' (ts.map Token.plain) = .error error'

section Follows

variable {levels levels' : Nat} {f f' : Reader}

/-- With numbers that convert, the parser goes on where a number stops it, and as before elsewhere. -/
def plainNumbers : Simulation where
  token := Token.plain
  place := id
  expr _ _ := True
  fails error read := ¬ error.fault.IsLimit → ∃ error', read = .error error'
  kind_token := Token.kind_plain
  value_token t ht := by rw [Token.plain_of_op ht]
  position_token := Token.position_plain
  expr_binary _ _ := trivial
  expr_unary _ := trivial
  expr_leaf {t e} hleaf := by
    by_cases hkind : t.kind.IsLeaf
    · obtain ⟨e', he'⟩ := exists_leaf_plain hkind
      exact ⟨e', he', trivial⟩
    · rw [leaf_of_not_isLeaf hkind] at hleaf
      cases hleaf
  fails_leaf {t error} after hleaf hnot := by
    by_cases hkind : t.kind.IsLeaf
    · exact absurd (isLimit_of_leaf hkind hleaf).1 hnot
    · have hkind' : ¬ t.plain.kind.IsLeaf := by rwa [Token.kind_plain]
      rw [leaf_of_not_isLeaf hkind']
      exact ⟨_, rfl⟩
  fails_error error _ := ⟨_, rfl⟩
  fails_next g hfails hnot := by
    obtain ⟨error', herror'⟩ := hfails hnot
    exact ⟨error', by rw [Reader.next, herror']⟩

theorem follows_of_simulates (h : Simulates plainNumbers f' f ts) : Follows f' f ts := by
  cases h with
  | read e e' rest hread _ hread' =>
    refine ⟨fun hok => ?_, fun herror => ?_⟩
    · rw [hread] at hok
      cases hok
      exact ⟨e', hread'⟩
    · rw [hread] at herror
      cases herror
  | fails error herror hfails =>
    refine ⟨fun hok => ?_, fun hstops => ?_⟩
    · rw [herror] at hok
      cases hok
    · rw [herror] at hstops
      cases hstops
      exact hfails

/-- More levels change nothing but the limit. -/
theorem follows_disjunction (stop : Nat) (hlevels : levels ≤ levels') (ts : List Token) :
    Follows (reader (disjunction (operand stop levels'))) (reader (disjunction (operand stop levels)))
      ts := by
  refine follows_of_simulates (simulates_disjunction (simulates_operand stop hlevels ?_) ts)
  exact .inr fun position read hnot => absurd trivial hnot

/-- The parser reads every list of the form to its end, unless a limit stops it. -/
theorem reads_or_limit_of_hasForm (h : HasForm .disjunction ts) (stop levels : Nat) :
    (∃ e, Reads (disjunction (operand stop levels)) ts e []) ∨
      ∃ error, disjunction (operand stop levels) ts = .error error ∧ error.fault.IsLimit := by
  -- with levels enough, the parser reads the list in which all numbers convert
  obtain ⟨e, hderives⟩ := h
  obtain ⟨limit, hwithin⟩ := exists_within [] (ts.map Token.plain)
  have hread : Reads (disjunction (operand stop (max levels limit))) (ts.map Token.plain) e [] :=
    reads_disjunction_iff.2 ⟨hderives, fun n hn => le_max_of_le_right (hwithin n hn)⟩
  have hread' := reader_eq_ok_iff.2 hread
  have hfollows := follows_disjunction stop (le_max_left levels limit) ts
  cases hts : reader (disjunction (operand stop levels)) ts with
  | ok r =>
    obtain ⟨e', rest⟩ := r
    obtain ⟨_, hsame⟩ := hfollows.read hts
    rw [hread', Except.ok.injEq, Prod.mk.injEq] at hsame
    obtain rfl : rest = [] := List.map_eq_nil_iff.1 hsame.2.symm
    exact .inl ⟨e', reader_eq_ok_iff.1 hts⟩
  | error error =>
    by_cases hlimit : error.fault.IsLimit
    · exact .inr ⟨error, reader_eq_error_iff.1 hts, hlimit⟩
    · obtain ⟨error', herror'⟩ := hfollows.stops hts hlimit
      rw [hread'] at herror'
      cases herror'

end Follows

end FeatureToggles.RuleText
