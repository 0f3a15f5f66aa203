import Scriptlet.Eval.Fault

/-!
# Operators

What the operators do with values. The kind of an operator's token says which operator it is, and a
kind that is no operator is treated as one that is defined nowhere.

Integer arithmetic wraps around at 64 bits. Division cuts off toward zero and has no result for the
divisor zero. Booleans can be compared for equality but have no order: every comparison of size is
false.
-/

namespace Scriptlet

namespace Value

/-- Applies a unary operator. -/
def unary (op : Kind) (operand : Value) : Except Fault Value :=
  match op, operand with
  | .bang, operand => .ok (.bool !operand.truthy)
  | .minus, .int value => .ok (.int (-value))
  | op, operand => .error (.unknownUnary op operand.type)

/-- Applies a binary operator to integers. -/
def binaryInt (op : Kind) (left right : Int64) : Except Fault Value :=
  match op with
  | .plus => .ok (.int (left + right))
  | .minus => .ok (.int (left - right))
  | .star => .ok (.int (left * right))
  | .slash => if right = 0 then .error .divisionByZero else .ok (.int (left / right))
  | .eq => .ok (.bool (left = right))
  | .ne => .ok (.bool (left ≠ right))
  | .lt => .ok (.bool (left < right))
  | .le => .ok (.bool (left ≤ right))
  | .gt => .ok (.bool (right < left))
  | .ge => .ok (.bool (right ≤ left))
  | op => .error (.unknownBinary .int op .int)

/-- Applies a binary operator to booleans. -/
def binaryBool (op : Kind) (left right : Bool) : Except Fault Value :=
  match op with
  | .eq => .ok (.bool (left = right))
  | .ne => .ok (.bool (left ≠ right))
  | .lt | .le | .gt | .ge => .ok (.bool false)
  | op => .error (.unknownBinary .bool op .bool)

/-- Applies a binary operator. -/
def binary (op : Kind) (left right : Value) : Except Fault Value :=
  match left, right with
  | .int left, .int right => binaryInt op left right
  | .bool left, .bool right => binaryBool op left right
  | left, right =>
      if left.type = right.type then .error (.unknownBinary left.type op right.type)
      else .error (.typeMismatch left.type op right.type)

/-- Applies a suffix operator. Nothing is bound anew: `n++` is `n + 1`. -/
def suffix (op : Kind) (operand : Value) : Except Fault Value :=
  match op, operand with
  | .plusPlus, .int value => .ok (.int (value + 1))
  | .minusMinus, .int value => .ok (.int (value - 1))
  | .question, operand => .ok (.bool operand.truthy)
  | op, operand => .error (.unknownSuffix operand.type op)

end Value

end Scriptlet
