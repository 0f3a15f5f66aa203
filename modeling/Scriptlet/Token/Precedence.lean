import Scriptlet.Token.Basic

/-!
# Operator precedence

How tightly a token binds to the expression on its left. A token that can continue an expression is
a binary operator, a suffix operator or the parenthesis that opens an argument list, which is what
`Kind.continuation?` says; its precedence is read off that role, and every other token has the
lowest one. So a token above the lowest precedence always has something to continue with.
-/

namespace Scriptlet

/-- The levels of binding strength, from the loosest to the tightest. -/
inductive Precedence where
  | lowest
  | equals
  | lessGreater
  | sum
  | product
  | unary
  | suffix
  | call
  | paren
  deriving DecidableEq, Repr

namespace Precedence

/-- The position of a level, counted from the loosest. -/
def rank : Precedence → Nat
  | lowest => 0
  | equals => 1
  | lessGreater => 2
  | sum => 3
  | product => 4
  | unary => 5
  | suffix => 6
  | call => 7
  | paren => 8

instance : LT Precedence := ⟨fun left right => left.rank < right.rank⟩

instance (left right : Precedence) : Decidable (left < right) :=
  inferInstanceAs (Decidable (left.rank < right.rank))

instance : Ord Precedence := ⟨fun left right => compare left.rank right.rank⟩

end Precedence

/-- How a token continues the expression on its left. -/
inductive Continuation where
  | binary (precedence : Precedence)
  | suffix
  | call
  deriving DecidableEq, Repr

/-- How tightly a continuation binds. -/
def Continuation.precedence : Continuation → Precedence
  | binary precedence => precedence
  | suffix => .suffix
  | call => .paren

namespace Kind

/-- The way a token of this kind continues an expression, if it can. -/
def continuation? : Kind → Option Continuation
  | eq | ne => some (.binary .equals)
  | lt | le | gt | ge => some (.binary .lessGreater)
  | plus | minus => some (.binary .sum)
  | star | slash => some (.binary .product)
  | plusPlus | minusMinus | question => some .suffix
  | lparen => some .call
  | _ => none

/-- How tightly a token of this kind binds to what stands on its left. -/
def precedence (kind : Kind) : Precedence :=
  match kind.continuation? with
  | some continuation => continuation.precedence
  | none => .lowest

end Kind

end Scriptlet
