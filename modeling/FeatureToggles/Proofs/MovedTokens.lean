import FeatureToggles.Proofs.Lexing
import FeatureToggles.Proofs.Simulations

/-!
# Tokens in other places

Nothing is decided by positions: they are only carried along. If all tokens are moved, the parser reads the
same expressions from them, and what it refuses has moved with them.
-/

namespace FeatureToggles.RuleText

/-- The token in another place. -/
def Token.moved (f : Nat → Nat) (token : Token) : Token :=
  { token with position := f token.position }

/-- The error in another place. -/
def Error.moved (f : Nat → Nat) (error : Error) : Error :=
  { error with position := f error.position }

variable {ts : List Token}

/-! ### The lexer -/

/-- In front of a text, other characters move its tokens and errors by their number. -/
theorem lexFrom_add (position n : Nat) (cs : List CodePoint) :
    lexFrom (position + n) cs = ((lexFrom position cs).map (List.map (Token.moved (· + n)))).mapError
      (Error.moved (· + n)) := by
  induction cs using text_induction generalizing position with
  | nil =>
    rw [lexFrom, lexFrom]
    rfl
  | blank c rest hblank ih =>
    rw [lexFrom_of_isBlank hblank, lexFrom_of_isBlank hblank, Nat.add_right_comm, ih]
  | token kind span value after hshape hends ih =>
    rw [lexFrom_of_hasShape hshape hends, lexFrom_of_hasShape hshape hends, Nat.add_right_comm, ih]
    cases lexFrom (position + span.length) after <;> rfl
  | stuck cs fault hstuck =>
    rw [lexFrom_of_stuck hstuck, lexFrom_of_stuck hstuck]
    rfl

/-! ### The parser -/

theorem leaf_moved (f : Nat → Nat) (t : Token) :
    leaf (t.moved f) = (leaf t).mapError (Error.moved f) := by
  obtain ⟨kind, value, position⟩ := t
  cases kind <;> simp only [leaf, Token.moved]
  case int => split <;> rfl
  case float => split <;> rfl
  all_goals rfl

/-- Moved tokens stand for the same expressions, and errors are moved with them. -/
def moving (f : Nat → Nat) : Simulation where
  token := Token.moved f
  place := f
  expr e e' := e' = e
  fails error read := read = .error (error.moved f)
  kind_token _ := rfl
  value_token _ _ := rfl
  position_token _ := rfl
  expr_binary hl hr := by rw [hl, hr]
  expr_unary he := by rw [he]
  expr_leaf h := ⟨_, by rw [leaf_moved, h]; rfl, rfl⟩
  fails_leaf after h := by
    rw [leaf_moved, h]
    rfl
  fails_error _ := rfl
  fails_next g h := by rw [Reader.next, h]

/-! ### Whole texts -/

/-- What becomes of a text, once an expression is read from its tokens. -/
def ended : Except Error (Expr × List Token) → Except Error Expr
  | .error error => .error error
  | .ok (_, t :: _) => .error ⟨.unexpectedToken t.value, t.position⟩
  | .ok (e, []) => if Expr.maxDepth < e.depth then .error ⟨.tooDeep, 0⟩ else .ok e

theorem parseTokens_eq_ended (stop : Nat) (ts : List Token) :
    parseTokens stop ts = if ts.isEmpty then .error ⟨.empty, 0⟩
      else ended (reader (disjunction (operand stop Expr.maxDepth)) ts) := by
  rw [parseTokens, reader]
  cases disjunction (operand stop Expr.maxDepth) ts with
  | error error => rfl
  | ok parsed =>
    obtain ⟨e, rest, hlt⟩ := parsed
    cases rest <;> rfl

/-- Wherever the tokens stand, they are the same expression, or the same is wrong with them. -/
theorem parseTokens_moved (f : Nat → Nat) (stop : Nat) (ts : List Token) :
    (parseTokens (f stop) (ts.map (Token.moved f))).mapError Error.fault
      = (parseTokens stop ts).mapError Error.fault := by
  have hread : Simulates (moving f) (reader (disjunction (operand (f stop) Expr.maxDepth)))
      (reader (disjunction (operand stop Expr.maxDepth))) ts :=
    simulates_disjunction (simulates_operand stop (Nat.le_refl _) (.inl rfl)) ts
  rw [parseTokens_eq_ended, parseTokens_eq_ended, List.isEmpty_map]
  split
  · rfl
  · cases hread with
    | read e e' rest hread he hread' =>
      obtain rfl : e' = e := he
      rw [hread, show reader _ (ts.map (Token.moved f)) = _ from hread']
      cases rest <;> rfl
    | fails error herror hfails =>
      rw [herror, show reader _ (ts.map (Token.moved f)) = _ from hfails]
      rfl

/-- What the tokens are, and not where they stand, makes the expression. -/
theorem parseTokens_congr {ts' : List Token} (h : ts.map Token.lexeme = ts'.map Token.lexeme)
    (stop stop' : Nat) : (parseTokens stop ts).mapError Error.fault
      = (parseTokens stop' ts').mapError Error.fault := by
  have hmoved (ts : List Token) : ts.map (Token.moved fun _ => 0)
      = (ts.map Token.lexeme).map fun l => ⟨l.kind, l.value, 0⟩ := by
    rw [List.map_map]
    rfl
  rw [← parseTokens_moved (fun _ => 0) stop, ← parseTokens_moved (fun _ => 0) stop', hmoved, hmoved, h]

end FeatureToggles.RuleText
