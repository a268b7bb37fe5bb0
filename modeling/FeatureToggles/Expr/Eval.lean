import FeatureToggles.Expr.Basic
import FeatureToggles.Metadata

/-!
# Evaluation

Evaluation never fails. A name without a value is false, a comparison across kinds is false, and unknown
operators have fixed meanings: between two operands false, in front of one its truth.
-/

namespace FeatureToggles

/-- The value of an operator between two values. Less is the contrary of greater, so across kinds it
holds. -/
def BinaryOp.apply (op : BinaryOp) (left right : Literal) : Bool :=
  match op with
  | .equal => left.eq right
  | .notEqual => !left.eq right
  | .greater => left.gt right
  | .greaterOrEqual => left.gt right || left.eq right
  | .less => !left.gt right
  | .lessOrEqual => left.eq right || !left.gt right
  | .and => left.isTrue && right.isTrue
  | .or => left.isTrue || right.isTrue

/-- The value of an operator in front of a value. -/
def UnaryOp.apply (op : UnaryOp) (value : Literal) : Bool :=
  match op with
  | .not => !value.isTrue
  | .present => true

/-- The value of an operator as written between two values. -/
def applyBinary (op : Operator BinaryOp) (left right : Literal) : Bool :=
  match op with
  | .known op => op.apply left right
  | .other .. => false

/-- The value of an operator as written in front of a value. -/
def applyUnary (op : Operator UnaryOp) (value : Literal) : Bool :=
  match op with
  | .known op => op.apply value
  | .other .. => value.isTrue

namespace Expr

/-- The value of an expression. -/
def eval (metadata : Metadata) : Expr → Literal
  | literal value => value
  | ident name => (metadata.get? name).getD (.bool false)
  | binary op left right => .bool (applyBinary op (left.eval metadata) (right.eval metadata))
  | unary op operand => .bool (applyUnary op (operand.eval metadata))

end Expr

end FeatureToggles
