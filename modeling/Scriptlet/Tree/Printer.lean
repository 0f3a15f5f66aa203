import Scriptlet.Tree.Basic

/-!
# Printing trees

The text of a tree, with every operator in parentheses, so that the shape of the tree shows without
any rule of precedence. Names print as they are, and literals and operators as their tokens read.

One place needs care. A word may go on with `?`, so a name or a boolean that stood directly in front
of the operator `?` would be read together with it as one word; there the operand gets a pair of
parentheses of its own.
-/

namespace Scriptlet

/-- The items one after the other, with a comma and a blank between two of them. -/
def commaSeparated : List String → String
  | [] => ""
  | first :: rest => first ++ String.join (rest.map (", " ++ ·))

/-- Whether an expression prints as a single word, which a following `?` would join. -/
def Expr.isWord : Expr → Bool
  | .name _ | .bool _ _ => true
  | _ => false

mutual

/-- The text of an expression. -/
def Expr.print : Expr → String
  | .name ident => ident.name
  | .int token _ | .bool token _ => token.literal
  | .unary token operand => "(" ++ token.literal ++ operand.print ++ ")"
  | .binary token left right =>
      "(" ++ left.print ++ " " ++ token.literal ++ " " ++ right.print ++ ")"
  | .suffix token operand =>
      if token.kind = .question ∧ operand.isWord then
        "((" ++ operand.print ++ ")" ++ token.literal ++ ")"
      else
        "(" ++ operand.print ++ token.literal ++ ")"
  | .cond _ test consequence none => "if (" ++ test.print ++ ")" ++ consequence.print
  | .cond _ test consequence (some alternative) =>
      "if (" ++ test.print ++ ")" ++ consequence.print ++ "else" ++ alternative.print
  | .function _ params body =>
      "fn(" ++ commaSeparated (params.map Ident.name) ++ ")" ++ body.print
  | .call _ callee args => callee.print ++ "(" ++ commaSeparated (printExprs args) ++ ")"
termination_by structural expr => expr

/-- The texts of several expressions. -/
def printExprs : List Expr → List String
  | [] => []
  | expr :: exprs => expr.print :: printExprs exprs
termination_by structural exprs => exprs

/-- The text of a statement. -/
def Stmt.print : Stmt → String
  | .letBind _ name value => "let " ++ name.name ++ " = " ++ value.print ++ ";"
  | .ret _ value => "return " ++ value.print ++ ";"
  | .expr _ expr => expr.print
  | .block block => block.print
termination_by structural stmt => stmt

/-- The texts of several statements. -/
def printStmts : List Stmt → List String
  | [] => []
  | stmt :: stmts => stmt.print :: printStmts stmts
termination_by structural stmts => stmts

/-- The text of a block, its statements one after the other between braces. -/
def Block.print : Block → String
  | .mk _ statements => "\x7b" ++ String.join (printStmts statements) ++ "\x7d"
termination_by structural block => block

end

/-- The text of a program: its statements one after the other. -/
def Program.print (program : Program) : String :=
  String.join (printStmts program.statements)

theorem printExprs_eq_map (exprs : List Expr) : printExprs exprs = exprs.map Expr.print := by
  induction exprs with
  | nil => rfl
  | cons expr exprs ih => rw [printExprs, ih, List.map_cons]

end Scriptlet
