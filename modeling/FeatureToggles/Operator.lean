import FeatureToggles.Text.Basic

/-!
# Operators

The operators of expressions, and how they are spelled. An operator that comes from stored data may have
any spelling; one that is not known is kept as it stands.
-/

namespace FeatureToggles

/-- A kind of operators, each with a spelling of its own. -/
class Spelled (κ : Type) where
  spelling : κ → Text
  ofSpelling? : Text → Option κ
  ofSpelling?_spelling : ∀ op, ofSpelling? (spelling op) = some op
  spelling_of_ofSpelling? : ∀ {s op}, ofSpelling? s = some op → spelling op = s

/-- The operators between two operands. -/
inductive BinaryOp where
  | equal
  | notEqual
  | greater
  | less
  | greaterOrEqual
  | lessOrEqual
  | and
  | or
  deriving DecidableEq

namespace BinaryOp

/-- All operators between two operands. -/
def all : List BinaryOp :=
  [equal, notEqual, greater, less, greaterOrEqual, lessOrEqual, and, or]

/-- How an operator is written. -/
def spelling : BinaryOp → Text
  | equal => "=="
  | notEqual => "!="
  | greater => ">"
  | less => "<"
  | greaterOrEqual => ">="
  | lessOrEqual => "<="
  | and => "&&"
  | or => "||"

/-- The operator that is written so. -/
def ofSpelling? (s : Text) : Option BinaryOp :=
  all.find? (·.spelling = s)

instance : Spelled BinaryOp where
  spelling := spelling
  ofSpelling? := ofSpelling?
  ofSpelling?_spelling op := by cases op <;> decide
  spelling_of_ofSpelling? h := by simpa using List.find?_some h

/-- Whether the operator joins truth values, as the operator of a rule has to. -/
def isLogical : BinaryOp → Bool
  | and => true
  | or => true
  | _ => false

end BinaryOp

/-- The operators in front of one operand. -/
inductive UnaryOp where
  | not
  | present
  deriving DecidableEq

namespace UnaryOp

/-- All operators in front of one operand. -/
def all : List UnaryOp := [not, present]

/-- How an operator is written. -/
def spelling : UnaryOp → Text
  | not => "!"
  | present => "!!"

/-- The operator that is written so. -/
def ofSpelling? (s : Text) : Option UnaryOp :=
  all.find? (·.spelling = s)

instance : Spelled UnaryOp where
  spelling := spelling
  ofSpelling? := ofSpelling?
  ofSpelling?_spelling op := by cases op <;> decide
  spelling_of_ofSpelling? h := by simpa using List.find?_some h

end UnaryOp

/-- An operator as written: a known one, or a spelling that belongs to none. -/
inductive Operator (κ : Type) [Spelled κ] where
  | known (op : κ)
  | other (text : Text) (unknown : (Spelled.ofSpelling? text : Option κ) = none)
  deriving DecidableEq

namespace Operator

variable {κ : Type} [Spelled κ]

/-- The operator with a given spelling. -/
def ofText (text : Text) : Operator κ :=
  match h : (Spelled.ofSpelling? text : Option κ) with
  | some op => known op
  | none => other text h

/-- How the operator is spelled. -/
def text : Operator κ → Text
  | known op => Spelled.spelling op
  | other text _ => text

theorem text_ofText (s : Text) : (ofText s : Operator κ).text = s := by
  unfold ofText
  split
  · exact Spelled.spelling_of_ofSpelling? ‹_›
  · rfl

theorem ofText_text (op : Operator κ) : ofText op.text = op := by
  cases op with
  | known op =>
    unfold ofText text
    split
    · next h => simp_all [Spelled.ofSpelling?_spelling op]
    · next h => simp [Spelled.ofSpelling?_spelling op] at h
  | other s unknown =>
    unfold ofText text
    split
    · next h => simp_all
    · rfl

end Operator

end FeatureToggles
