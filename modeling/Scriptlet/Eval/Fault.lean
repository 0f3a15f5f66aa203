import Scriptlet.Eval.Value

/-!
# Faults

What can go wrong while a program is evaluated, and the message for each case.
-/

namespace Scriptlet

/-- What can go wrong while a program is evaluated. -/
inductive Fault where
  /-- The operands of a binary operator are of different types. -/
  | typeMismatch (left : ValueType) (op : Kind) (right : ValueType)
  /-- The unary operator is not defined on the type of its operand. -/
  | unknownUnary (op : Kind) (operand : ValueType)
  /-- The binary operator is not defined on the type of its operands. -/
  | unknownBinary (left : ValueType) (op : Kind) (right : ValueType)
  /-- The suffix operator is not defined on the type of its operand. -/
  | unknownSuffix (operand : ValueType) (op : Kind)
  | divisionByZero
  /-- The name is bound in no scope outward. -/
  | unbound (name : String)
  /-- A value of this type was called. -/
  | notAFunction (found : ValueType)
  /-- A function was called with the wrong number of arguments. -/
  | argumentCount (expected found : Nat)
  /-- Calls lie deeper inside each other than the limit allows. -/
  | stackOverflow (limit : Nat)
  deriving DecidableEq, Repr

/-- The message for a fault. -/
def Fault.message : Fault → String
  | typeMismatch left op right =>
      "type mismatch: " ++ left.label ++ " " ++ op.label ++ " " ++ right.label
  | unknownUnary op operand => "unknown operator: " ++ op.label ++ operand.label
  | unknownBinary left op right =>
      "unknown operator: " ++ left.label ++ " " ++ op.label ++ " " ++ right.label
  | unknownSuffix operand op => "unknown operator: " ++ operand.label ++ op.label
  | divisionByZero => "division by zero"
  | unbound name => "identifier not found: " ++ name
  | notAFunction found => "not a function: " ++ found.label
  | argumentCount expected found =>
      "wrong number of arguments: expected " ++ toString expected ++ ", got " ++ toString found
  | stackOverflow limit => "stack overflow: more than " ++ toString limit ++ " nested calls"

instance : ToString Fault := ⟨Fault.message⟩

end Scriptlet
