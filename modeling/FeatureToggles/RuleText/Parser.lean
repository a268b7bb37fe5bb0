import FeatureToggles.Decimal.Numeral
import FeatureToggles.Expr.Basic
import FeatureToggles.RuleText.Token
import FeatureToggles.Unicode.Decimal

/-!
# Expressions from rule text

The grammar, from the weakest binding to the strongest: `||`, `&&`, one comparison, the operators `!` and
`!!` in front of an operand, and at last literals, names and groups in parentheses. `||` and `&&` group to
the left, and comparisons do not chain.

Parentheses and operators in front of an operand nest at most `Expr.maxDepth` levels, and so does the tree
that comes out. The parser recurses on the levels that are left.
-/

namespace FeatureToggles.RuleText

open CodePoint (char)

open Decimal (Numeral)
open Unicode (decimalValue?)

/-- An expression read off the front of some tokens, and what follows it. -/
structure Parsed (tokens : List Token) where
  expr : Expr
  rest : List Token
  shorter : rest.length < tokens.length

/-- A parser of one level of the grammar. It takes at least one token. -/
abbrev Level := (tokens : List Token) → Except Error (Parsed tokens)

/-! ### Operators between operands -/

/-- Whether a token is the operator `op`. -/
def isOp (op : Text) (token : Token) : Bool :=
  token.kind = .op && token.value = op

/-- The comparison that a token stands for. -/
def comparison? (token : Token) : Option BinaryOp :=
  if token.kind = .op then
    match BinaryOp.ofSpelling? token.value with
    | some op => if op.isLogical then none else some op
    | none => none
  else none

/-- Goes on after `left` with all operands that `op` joins to it. -/
def chain (op : BinaryOp) (operand : Level) (left : Expr) (tokens : List Token) :
    Except Error (Expr × { rest : List Token // rest.length ≤ tokens.length }) :=
  match tokens with
  | [] => .ok (left, ⟨[], Nat.le_refl _⟩)
  | token :: after =>
    if isOp op.spelling token then
      match operand after with
      | .error e => .error e
      | .ok ⟨right, rest, hr⟩ =>
        match chain op operand (.binary (.known op) left right) rest with
        | .error e => .error e
        | .ok (expr, ⟨last, hl⟩) => .ok (expr, ⟨last, by simp only [List.length_cons]; omega⟩)
    else .ok (left, ⟨token :: after, Nat.le_refl _⟩)
termination_by tokens.length

/-- Operands joined by `op`, grouped to the left. -/
def joined (op : BinaryOp) (operand : Level) : Level := fun tokens =>
  match operand tokens with
  | .error e => .error e
  | .ok ⟨left, after, ha⟩ =>
    match chain op operand left after with
    | .error e => .error e
    | .ok (expr, ⟨rest, hr⟩) => .ok ⟨expr, rest, by omega⟩

/-- An operand, or a comparison of two. -/
def compared (operand : Level) : Level := fun tokens =>
  match operand tokens with
  | .error e => .error e
  | .ok ⟨left, [], ha⟩ => .ok ⟨left, [], ha⟩
  | .ok ⟨left, token :: after, ha⟩ =>
    match comparison? token with
    | none => .ok ⟨left, token :: after, ha⟩
    | some op =>
      match operand after with
      | .error e => .error e
      | .ok ⟨right, rest, hr⟩ =>
        .ok ⟨.binary (.known op) left right, rest, by simp only [List.length_cons] at ha; omega⟩

/-- A whole expression over the given operands. -/
def disjunction (operand : Level) : Level :=
  joined .or (joined .and (compared operand))

/-! ### Numbers -/

/-- The value of digits in any script. Underscores between them do not count. -/
def digitValues? (cs : List CodePoint) : Option (List Nat) :=
  (cs.filter (· ≠ char '_')).mapM decimalValue?

/-- The integer that a number token stands for. -/
def intOf? (cs : List CodePoint) : Option Int := do
  let whole ← digitValues? cs
  Numeral.toInt? ⟨false, whole, [], none⟩

/-- The binary64 number that a number token with a point stands for. -/
def floatOf? (cs : List CodePoint) : Option Binary64 := do
  let whole ← digitValues? (cs.takeWhile (· ≠ char '.'))
  let fraction ← digitValues? ((cs.dropWhile (· ≠ char '.')).drop 1)
  return Numeral.toBinary64 ⟨false, whole, fraction, none⟩

/-- The expression that a token stands for by itself. -/
def leaf (token : Token) : Except Error Expr :=
  match token.kind with
  | .string => .ok (.literal (.string token.value))
  | .keyword => .ok (.literal (.bool (token.value = "true")))
  | .ident => .ok (.ident token.value)
  | .int =>
    match intOf? token.value.toList with
    | some n => .ok (.literal (.int n))
    | none => .error ⟨.invalidNumber token.value, token.position⟩
  | .float =>
    match floatOf? token.value.toList with
    | some x => .ok (.literal (.float x))
    | none => .error ⟨.invalidNumber token.value, token.position⟩
  | _ => .error ⟨.unexpectedToken token.value, token.position⟩

/-! ### Operands -/

/-- The operator in front of an operand that a token stands for. -/
def unary? (token : Token) : Option UnaryOp :=
  if token.kind = .op then UnaryOp.ofSpelling? token.value else none

/-- An expression in parentheses, after the opening one. -/
def group (stop : Nat) (inner : Level) : Level := fun tokens =>
  match inner tokens with
  | .error e => .error e
  | .ok ⟨_, [], _⟩ => .error ⟨.unexpectedEnd, stop⟩
  | .ok ⟨expr, closing :: rest, h⟩ =>
    if closing.kind = .groupEnd then
      .ok ⟨expr, rest, by simp only [List.length_cons] at h; omega⟩
    else .error ⟨.unclosedGroup, closing.position⟩

/-- An operand with operators in front of it, if `levels` more of them or of groups may be opened. -/
def operand (stop : Nat) : (levels : Nat) → Level
  | 0 => fun
    | [] => .error ⟨.unexpectedEnd, stop⟩
    | token :: after =>
      if (unary? token).isSome || token.kind = .groupStart then .error ⟨.tooDeep, token.position⟩
      else (leaf token).map fun expr => ⟨expr, after, Nat.lt_succ_self _⟩
  | levels + 1 => fun
    | [] => .error ⟨.unexpectedEnd, stop⟩
    | token :: after =>
      match unary? token with
      | some op =>
        (operand stop levels after).map fun ⟨expr, rest, h⟩ =>
          ⟨.unary (.known op) expr, rest, Nat.lt_succ_of_lt h⟩
      | none =>
        if token.kind = .groupStart then
          (group stop (disjunction (operand stop levels)) after).map fun ⟨expr, rest, h⟩ =>
            ⟨expr, rest, Nat.lt_succ_of_lt h⟩
        else (leaf token).map fun expr => ⟨expr, after, Nat.lt_succ_self _⟩

/-! ### Whole texts -/

/-- The expression of all tokens of a text of `stop` characters. -/
def parseTokens (stop : Nat) (tokens : List Token) : Except Error Expr :=
  if tokens.isEmpty then .error ⟨.empty, 0⟩
  else
    match disjunction (operand stop Expr.maxDepth) tokens with
    | .error e => .error e
    | .ok ⟨_, token :: _, _⟩ => .error ⟨.unexpectedToken token.value, token.position⟩
    | .ok ⟨expr, [], _⟩ =>
      if Expr.maxDepth < expr.depth then .error ⟨.tooDeep, 0⟩ else .ok expr

/-- The expression of a text. -/
def parse (text : Text) : Except Error Expr :=
  match lex text with
  | .error e => .error e
  | .ok tokens => parseTokens text.length tokens

end FeatureToggles.RuleText
