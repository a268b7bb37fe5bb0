import FeatureToggles.Text.Quoted
import FeatureToggles.Text.Runs
import FeatureToggles.Decimal.Digits
import FeatureToggles.Unicode.Blank
import FeatureToggles.Unicode.Digit
import FeatureToggles.Unicode.Letter
import FeatureToggles.Unicode.Numeric

/-!
# Tokens of rule text

Rule text is split into words, numbers, quoted strings, operators of one or two characters, and
parentheses. White space separates tokens and is dropped. Every token is as long as it can be.
-/

namespace FeatureToggles.RuleText

open CodePoint (char)

open Unicode (isBlank isDigit isLetter isNumeric)

/-- The kinds of tokens. -/
inductive TokenKind where
  | ident
  | keyword
  | string
  | int
  | float
  | op
  | groupStart
  | groupEnd
  deriving DecidableEq

/-- A token, and the number of characters in front of it. -/
structure Token where
  kind : TokenKind
  value : Text
  position : Nat
  deriving DecidableEq

/-- What is wrong with a rule text. -/
inductive Fault where
  | unterminatedString
  | unexpectedChar (c : CodePoint)
  | empty
  | tooDeep
  | unexpectedEnd
  | invalidNumber (text : Text)
  | unclosedGroup
  | unexpectedToken (text : Text)
  deriving DecidableEq

/-- What is wrong, in words. -/
def Fault.message : Fault → Text
  | unterminatedString => "unterminated string literal"
  | unexpectedChar c => "unexpected character " ++ Text.quoted (Text.ofList [c])
  | empty => "empty expression"
  | tooDeep => "expression is nested too deeply"
  | unexpectedEnd => "unexpected end of expression"
  | invalidNumber text => "invalid number " ++ Text.quoted text
  | unclosedGroup => "expected ')'"
  | unexpectedToken text => "unexpected " ++ Text.quoted text

/-- A fault and the number of characters in front of it. -/
structure Error where
  fault : Fault
  position : Nat
  deriving DecidableEq

/-- What is wrong and where, in words. -/
def Error.message (e : Error) : Text :=
  e.fault.message ++ " at position " ++ Text.ofList (Decimal.natText e.position)

/-! ### Character classes -/

/-- The characters that a word starts with. -/
def isWordStart (c : CodePoint) : Bool :=
  isLetter c || c = '_'

/-- The characters that a word goes on with. -/
def isWordPart (c : CodePoint) : Bool :=
  isLetter c || isNumeric c || c = '_'

/-- The characters that a number goes on with. -/
def isNumberPart (c : CodePoint) : Bool :=
  isDigit c || c = '_'

/-- The characters of operators. -/
def isOperatorChar (c : CodePoint) : Bool :=
  c = '=' || c = '!' || c = '&' || c = '|' || c = '>' || c = '<'

/-! ### Lexing -/

/-- The kind of a word. -/
def wordKind (word : List CodePoint) : TokenKind :=
  if word = ("true" : Text).toList ∨ word = ("false" : Text).toList then .keyword else .ident

/-- The kind of the number that starts here, its characters and what follows them: digits, and after them
perhaps a point and more digits. -/
def numberAt (cs : List CodePoint) : TokenKind × List CodePoint × List CodePoint :=
  let whole := cs.takeWhile isNumberPart
  match cs.dropWhile isNumberPart with
  | '.' :: rest =>
    (.float, whole ++ char '.' :: rest.takeWhile isNumberPart, rest.dropWhile isNumberPart)
  | rest => (.int, whole, rest)

/-- The characters of a string up to its closing quote, and what follows the quote. A backslash stands for
the character after it. -/
def stringAt : List CodePoint → Option (List CodePoint × List CodePoint)
  | [] => none
  | '\x22' :: rest => some ([], rest)
  | '\\' :: c :: rest => (stringAt rest).map fun (value, after) => (c :: value, after)
  | c :: rest => (stringAt rest).map fun (value, after) => (c :: value, after)

/-- The operator that starts with `c`: two characters if the second belongs to operators as well. -/
def operatorAt (c : CodePoint) : List CodePoint → List CodePoint × List CodePoint
  | d :: rest => if isOperatorChar d then ([c, d], rest) else ([c], d :: rest)
  | [] => ([c], [])

/-- The token that starts with `c`, which is not white space: its kind, its value, and what follows it. -/
def tokenAt (c : CodePoint) (rest : List CodePoint) :
    Except Fault (TokenKind × List CodePoint × List CodePoint) :=
  if isWordStart c then
    let word := c :: rest.takeWhile isWordPart
    .ok (wordKind word, word, rest.dropWhile isWordPart)
  else if isDigit c then .ok (numberAt (c :: rest))
  else if c = '\x22' then
    match stringAt rest with
    | some (value, after) => .ok (.string, value, after)
    | none => .error .unterminatedString
  else if isOperatorChar c then .ok (.op, operatorAt c rest)
  else if c = '(' then .ok (.groupStart, [c], rest)
  else if c = ')' then .ok (.groupEnd, [c], rest)
  else .error (.unexpectedChar c)

theorem length_stringAt {cs value after : List CodePoint} (h : stringAt cs = some (value, after)) :
    after.length < cs.length := by
  fun_induction stringAt cs generalizing value after with
  | case1 => simp at h
  | case2 rest =>
    simp only [Option.some.injEq, Prod.mk.injEq] at h
    simp [← h.2]
  | case3 c rest ih =>
    simp only [Option.map_eq_some_iff, Prod.mk.injEq, Prod.exists] at h
    obtain ⟨v, r, hr, -, rfl⟩ := h
    have := ih hr
    simp only [List.length_cons]
    omega
  | case4 c rest _ _ ih =>
    simp only [Option.map_eq_some_iff, Prod.mk.injEq, Prod.exists] at h
    obtain ⟨v, r, hr, -, rfl⟩ := h
    have := ih hr
    simp only [List.length_cons]
    omega

theorem length_operatorAt (c : CodePoint) (rest : List CodePoint) :
    (operatorAt c rest).2.length ≤ rest.length := by
  unfold operatorAt
  split
  · split <;> simp
  · simp

theorem length_numberAt {c : CodePoint} (hc : isDigit c = true) (rest : List CodePoint) :
    (numberAt (c :: rest)).2.2.length ≤ rest.length := by
  have hp : isNumberPart c = true := by simp [isNumberPart, hc]
  have hd := Text.length_takeWhile_add_dropWhile isNumberPart rest
  unfold numberAt
  rw [List.dropWhile_cons_of_pos hp]
  split
  · next after h =>
    have ha := Text.length_takeWhile_add_dropWhile isNumberPart after
    rw [h, List.length_cons] at hd
    simp only
    omega
  · simp only
    omega

/-- A token takes at least its first character. -/
theorem length_tokenAt {c : CodePoint} {rest value after : List CodePoint} {kind : TokenKind}
    (h : tokenAt c rest = .ok (kind, value, after)) : after.length ≤ rest.length := by
  have hw := Text.length_takeWhile_add_dropWhile isWordPart rest
  have ho := length_operatorAt c rest
  unfold tokenAt at h
  repeat' split at h
  all_goals simp only [Except.ok.injEq, Prod.mk.injEq, reduceCtorEq] at h
  · rw [← h.2.2]
    omega
  · next hd =>
    have hn := length_numberAt hd rest
    rw [h] at hn
    exact hn
  · next hs =>
    rw [← h.2.2]
    exact Nat.le_of_lt (length_stringAt hs)
  · rw [h.2] at ho
    exact ho
  · exact Nat.le_of_eq (congrArg List.length h.2.2.symm)
  · exact Nat.le_of_eq (congrArg List.length h.2.2.symm)

/-- The tokens of characters that have `position` others in front of them. -/
def lexFrom (position : Nat) : List CodePoint → Except Error (List Token)
  | [] => .ok []
  | c :: rest =>
    if isBlank c then lexFrom (position + 1) rest
    else
      match h : tokenAt c rest with
      | .error fault => .error ⟨fault, position⟩
      | .ok (kind, value, after) =>
        have := length_tokenAt h
        match lexFrom (position + (rest.length + 1 - after.length)) after with
        | .error e => .error e
        | .ok tokens => .ok (⟨kind, Text.ofList value, position⟩ :: tokens)
termination_by cs => cs.length

/-- The tokens of a text. -/
def lex (text : Text) : Except Error (List Token) :=
  lexFrom 0 text.toList

end FeatureToggles.RuleText
