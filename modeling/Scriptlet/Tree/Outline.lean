import Scriptlet.Tree.Role

/-!
# Outlines

The outline of a tree is the list of its nodes, a node before its children, each with its depth, its
name, its token and a few details that the name alone does not give. Unlike a traversal, an outline
shows a block statement and its block as two nodes, one inside the other.
-/

namespace Scriptlet

/-- A detail of a node. -/
inductive Detail where
  | text (text : String)
  | number (number : Nat)
  | flag (flag : Bool)
  | param (param : Ident)
  deriving DecidableEq, Repr

/-- A node as an outline lists it. -/
structure Entry where
  depth : Nat
  label : String
  token : Token
  details : List Detail
  deriving DecidableEq, Repr

mutual

/-- The outline of an expression at a depth. -/
def Expr.outline (depth : Nat) : Expr → List Entry
  | .name ident => [⟨depth, Role.identifier.label, ident.token, [.text ident.name]⟩]
  | .int token value => [⟨depth, Role.integer.label, token, [.text (toString value.toInt)]⟩]
  | .bool token value => [⟨depth, Role.boolean.label, token, [.flag value]⟩]
  | .unary token operand =>
      ⟨depth, Role.unary.label, token, [.text token.kind.label]⟩ :: operand.outline (depth + 1)
  | .binary token left right =>
      ⟨depth, Role.binary.label, token, [.text token.kind.label]⟩ ::
        (left.outline (depth + 1) ++ right.outline (depth + 1))
  | .suffix token operand =>
      ⟨depth, Role.suffix.label, token, [.text token.kind.label]⟩ :: operand.outline (depth + 1)
  | .cond token test consequence none =>
      ⟨depth, Role.cond.label, token, [.flag false]⟩ ::
        (test.outline (depth + 1) ++ consequence.outline (depth + 1))
  | .cond token test consequence (some alternative) =>
      ⟨depth, Role.cond.label, token, [.flag true]⟩ ::
        (test.outline (depth + 1) ++ consequence.outline (depth + 1) ++
          alternative.outline (depth + 1))
  | .function token params body =>
      ⟨depth, Role.function.label, token, params.map .param⟩ :: body.outline (depth + 1)
  | .call token callee args =>
      ⟨depth, Role.call.label, token, [.number args.length]⟩ ::
        (callee.outline (depth + 1) ++ outlineExprs (depth + 1) args)
termination_by structural expr => expr

/-- The outlines of several expressions at a depth. -/
def outlineExprs (depth : Nat) : List Expr → List Entry
  | [] => []
  | expr :: exprs => expr.outline depth ++ outlineExprs depth exprs
termination_by structural exprs => exprs

/-- The outline of a statement at a depth. -/
def Stmt.outline (depth : Nat) : Stmt → List Entry
  | .letBind token name value =>
      ⟨depth, "let statement", token, [.text name.name]⟩ :: value.outline (depth + 1)
  | .ret token value => ⟨depth, "return statement", token, []⟩ :: value.outline (depth + 1)
  | .expr token expr => ⟨depth, "expression statement", token, []⟩ :: expr.outline (depth + 1)
  | .block block => ⟨depth, "block statement", block.token, []⟩ :: block.outline (depth + 1)
termination_by structural stmt => stmt

/-- The outlines of several statements at a depth. -/
def outlineStmts (depth : Nat) : List Stmt → List Entry
  | [] => []
  | stmt :: stmts => stmt.outline depth ++ outlineStmts depth stmts
termination_by structural stmts => stmts

/-- The outline of a block at a depth. -/
def Block.outline (depth : Nat) : Block → List Entry
  | .mk token statements =>
      ⟨depth, Role.block.label, token, [.number statements.length]⟩ ::
        outlineStmts (depth + 1) statements
termination_by structural block => block

end

/-- The outline of a program. -/
def Program.outline (program : Program) : List Entry :=
  outlineStmts 0 program.statements

end Scriptlet
