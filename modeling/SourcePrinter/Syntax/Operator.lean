/-! The operators of expressions and the operators that a type can define. -/

namespace SourcePrinter

/-- An operator between two operands. -/
inductive BinaryOperator where
  | add
  | subtract
  | multiply
  | divide
  | integerDivide
  | modulus
  | equals
  | notEquals
  | lessThan
  | lessThanOrEqual
  | greaterThan
  | greaterThanOrEqual
  | logicalAnd
  | logicalOr
  | logicalXor
  | implies
  | bitwiseAnd
  | bitwiseOr
  | bitwiseXor
  | shiftLeft
  | shiftRight
  | is
  | isNot
  | addEvent
  | removeEvent
  | nullCoalesce
  deriving DecidableEq, Repr

namespace BinaryOperator

/-- The name of the operator in messages. -/
def name : BinaryOperator → String
  | add => "Add"
  | subtract => "Subtract"
  | multiply => "Multiply"
  | divide => "Divide"
  | integerDivide => "IntegerDivide"
  | modulus => "Modulus"
  | equals => "Equals"
  | notEquals => "NotEquals"
  | lessThan => "LessThan"
  | lessThanOrEqual => "LessThanOrEqual"
  | greaterThan => "GreaterThan"
  | greaterThanOrEqual => "GreaterThanOrEqual"
  | logicalAnd => "LogicalAnd"
  | logicalOr => "LogicalOr"
  | logicalXor => "LogicalXor"
  | implies => "Implies"
  | bitwiseAnd => "BitwiseAnd"
  | bitwiseOr => "BitwiseOr"
  | bitwiseXor => "BitwiseXor"
  | shiftLeft => "ShiftLeft"
  | shiftRight => "ShiftRight"
  | is => "Is"
  | isNot => "IsNot"
  | addEvent => "AddEvent"
  | removeEvent => "RemoveEvent"
  | nullCoalesce => "NullCoalesce"

/-- Every operator, once. -/
def all : List BinaryOperator :=
  [add, subtract, multiply, divide, integerDivide, modulus, equals, notEquals, lessThan,
    lessThanOrEqual, greaterThan, greaterThanOrEqual, logicalAnd, logicalOr, logicalXor, implies,
    bitwiseAnd, bitwiseOr, bitwiseXor, shiftLeft, shiftRight, is, isNot, addEvent, removeEvent,
    nullCoalesce]

theorem mem_all (op : BinaryOperator) : op ∈ all := by cases op <;> decide

end BinaryOperator

/-- An operator before its operand. -/
inductive UnaryOperator where
  | plus
  | minus
  | not
  | bitwiseNot
  deriving DecidableEq, Repr

namespace UnaryOperator

/-- The name of the operator. -/
def name : UnaryOperator → String
  | plus => "Plus"
  | minus => "Minus"
  | not => "Not"
  | bitwiseNot => "BitwiseNot"

/-- Every operator, once. -/
def all : List UnaryOperator := [plus, minus, not, bitwiseNot]

theorem mem_all (op : UnaryOperator) : op ∈ all := by cases op <;> decide

end UnaryOperator

/-- An operator or conversion that a type can define. -/
inductive OverloadableOperator where
  | plus
  | minus
  | multiply
  | divide
  | modulus
  | equals
  | notEquals
  | lessThan
  | lessThanOrEqual
  | greaterThan
  | greaterThanOrEqual
  | not
  | bitwiseNot
  | implicitConversion
  | explicitConversion
  deriving DecidableEq, Repr

namespace OverloadableOperator

/-- The name of the operator in messages. -/
def name : OverloadableOperator → String
  | plus => "Plus"
  | minus => "Minus"
  | multiply => "Multiply"
  | divide => "Divide"
  | modulus => "Modulus"
  | equals => "Equals"
  | notEquals => "NotEquals"
  | lessThan => "LessThan"
  | lessThanOrEqual => "LessThanOrEqual"
  | greaterThan => "GreaterThan"
  | greaterThanOrEqual => "GreaterThanOrEqual"
  | not => "Not"
  | bitwiseNot => "BitwiseNot"
  | implicitConversion => "ImplicitConversion"
  | explicitConversion => "ExplicitConversion"

/-- Every operator, once. -/
def all : List OverloadableOperator :=
  [plus, minus, multiply, divide, modulus, equals, notEquals, lessThan, lessThanOrEqual,
    greaterThan, greaterThanOrEqual, not, bitwiseNot, implicitConversion, explicitConversion]

theorem mem_all (op : OverloadableOperator) : op ∈ all := by cases op <;> decide

end OverloadableOperator

end SourcePrinter
