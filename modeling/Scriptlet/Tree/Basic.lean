import Scriptlet.Token.Basic

/-!
# Syntax trees

The trees of programs. Every node keeps the token it was read from: an operator or a call its
operator or parenthesis, a block its opening brace, an expression statement its first token. Tokens
do not decide the shape of a tree, so a tree built by hand may carry any token anywhere; what the
tree prints as and how its operators behave is still read off them.
-/

namespace Scriptlet

/-- A name with the token it was read from. -/
structure Ident where
  token : Token
  name : String
  deriving DecidableEq, Repr

/-- The identifier a token spells. -/
def Ident.ofToken (token : Token) : Ident := ⟨token, token.literal⟩

mutual

/-- Expressions. Parentheses only group and leave no node. -/
inductive Expr where
  | name (ident : Ident)
  | int (token : Token) (value : Int64)
  | bool (token : Token) (value : Bool)
  | unary (token : Token) (operand : Expr)
  | binary (token : Token) (left right : Expr)
  | suffix (token : Token) (operand : Expr)
  | cond (token : Token) (test : Expr) (consequence : Block) (alternative : Option Block)
  | function (token : Token) (params : List Ident) (body : Block)
  | call (token : Token) (callee : Expr) (args : List Expr)

/-- Statements. -/
inductive Stmt where
  | letBind (token : Token) (name : Ident) (value : Expr)
  | ret (token : Token) (value : Expr)
  | expr (token : Token) (expr : Expr)
  | block (block : Block)

/-- Statements between braces. -/
inductive Block where
  | mk (token : Token) (statements : List Stmt)

end

/-- A whole program. -/
structure Program where
  statements : List Stmt

namespace Block

/-- The opening brace. -/
def token : Block → Token
  | mk token _ => token

/-- The statements between the braces. -/
def statements : Block → List Stmt
  | mk _ statements => statements

end Block

/-- The token an expression was read from. -/
def Expr.token : Expr → Token
  | name ident => ident.token
  | int token _ | bool token _ | unary token _ | binary token _ _ | suffix token _
  | cond token _ _ _ | function token _ _ | call token _ _ => token

/-- The token a statement was read from. -/
def Stmt.token : Stmt → Token
  | letBind token _ _ | ret token _ | expr token _ => token
  | block body => body.token

/-- The texts of the statements' tokens, each on a line of its own. -/
def Program.literals (program : Program) : String :=
  String.join (program.statements.map fun statement => statement.token.literal ++ "\n")

end Scriptlet
