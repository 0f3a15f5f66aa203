import Scriptlet.Tree.Basic

/-!
# Roles of tokens

The places in a tree that hold a token with a job. Each role has a name and a list of the kinds of
token that may fill it. The token of an expression statement has no role: it only repeats the first
token of the expression.
-/

namespace Scriptlet

/-- The places in a tree whose token has a job. -/
inductive Role where
  | identifier
  | integer
  | boolean
  | unary
  | binary
  | suffix
  | cond
  | function
  | parameter
  | call
  | letBind
  | letName
  | ret
  | block
  deriving DecidableEq, Repr

namespace Role

/-- The name of a role in messages. -/
def label : Role → String
  | identifier => "identifier"
  | integer => "integer"
  | boolean => "boolean"
  | unary => "prefix"
  | binary => "infix"
  | suffix => "suffix"
  | cond => "if"
  | function => "function"
  | parameter => "parameter"
  | call => "call"
  | letBind => "let"
  | letName => "let name"
  | ret => "return"
  | block => "block"

/-- The kinds of token that may fill a role. -/
def allowed : Role → List Kind
  | identifier | parameter | letName => [.ident]
  | integer => [.int]
  | boolean => [.kwTrue, .kwFalse]
  | unary => [.minus, .bang]
  | binary => [.plus, .minus, .star, .slash, .eq, .ne, .lt, .le, .gt, .ge]
  | suffix => [.plusPlus, .minusMinus, .question]
  | cond => [.kwIf]
  | function => [.kwFn]
  | call => [.lparen]
  | letBind => [.kwLet]
  | ret => [.kwReturn]
  | block => [.lbrace]

end Role

/-- The role that an expression's own token plays. -/
def Expr.role : Expr → Role
  | .name _ => .identifier
  | .int _ _ => .integer
  | .bool _ _ => .boolean
  | .unary _ _ => .unary
  | .binary _ _ _ => .binary
  | .suffix _ _ => .suffix
  | .cond _ _ _ _ => .cond
  | .function _ _ _ => .function
  | .call _ _ _ => .call

end Scriptlet
