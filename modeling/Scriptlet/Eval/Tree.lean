import Scriptlet.Eval.Basic
import Scriptlet.Eval.Operator

/-!
# Evaluating trees

Evaluation descends into the tree, except where a function is called: there it goes on with the body
of the function, which lies elsewhere. So `Expr.eval` is defined by recursion on the tree and is
told in `enter` how to run the body of a function. `Closure.enter` ties the knot by recursion on the
number of calls that may still be entered, and without any left it is a fault to enter one more.
-/

namespace Scriptlet

/-- How deep calls may lie inside each other. -/
def callLimit : Nat := 256

/-- How to run the body of a function on arguments. -/
abbrev Enter := Closure → List Value → Eval Value

/-- Calls a value. Only functions can be called, and only with as many arguments as they have
parameters. -/
def Value.apply (enter : Enter) (callee : Value) (args : List Value) : Eval Value :=
  match callee with
  | .function closure =>
      if closure.params.length = args.length then enter closure args
      else Eval.fail (.argumentCount closure.params.length args.length)
  | value => Eval.fail (.notAFunction value.type)

mutual

/-- Evaluates an expression, operands from left to right. -/
def Expr.eval (enter : Enter) (scope : ScopeId) : Expr → Eval Value
  | .name ident => Eval.lookup scope ident.name
  | .int _ value => return .int value
  | .bool _ value => return .bool value
  | .unary token operand => do
      let operand ← operand.eval enter scope
      Eval.ofExcept (Value.unary token.kind operand)
  | .binary token left right => do
      let left ← left.eval enter scope
      let right ← right.eval enter scope
      Eval.ofExcept (Value.binary token.kind left right)
  | .suffix token operand => do
      let operand ← operand.eval enter scope
      Eval.ofExcept (Value.suffix token.kind operand)
  | .cond _ test consequence none => do
      let test ← test.eval enter scope
      if test.truthy then consequence.eval enter scope else return .null
  | .cond _ test consequence (some alternative) => do
      let test ← test.eval enter scope
      if test.truthy then consequence.eval enter scope else alternative.eval enter scope
  | .function _ params body => Eval.newFunction params body scope
  | .call _ callee args => do
      let callee ← callee.eval enter scope
      let args ← evalExprs enter scope args
      callee.apply enter args
termination_by structural expr => expr

/-- Evaluates several expressions in order. -/
def evalExprs (enter : Enter) (scope : ScopeId) : List Expr → Eval (List Value)
  | [] => return []
  | expr :: exprs => do
      let value ← expr.eval enter scope
      let values ← evalExprs enter scope exprs
      return value :: values
termination_by structural exprs => exprs

/-- Evaluates a statement. Binding a name has the null value. -/
def Stmt.eval (enter : Enter) (scope : ScopeId) : Stmt → Eval Value
  | .letBind _ name value => do
      let value ← value.eval enter scope
      Eval.bindName scope name.name value
      return .null
  | .ret _ value => do
      let value ← value.eval enter scope
      Eval.interrupt (.returned value)
  | .expr _ expr => expr.eval enter scope
  | .block block => block.eval enter scope
termination_by structural stmt => stmt

/-- Evaluates several statements in order. The value is that of the last one, or `last` if there is
none. -/
def evalStmts (enter : Enter) (scope : ScopeId) (last : Value) : List Stmt → Eval Value
  | [] => return last
  | stmt :: stmts => do
      let value ← stmt.eval enter scope
      evalStmts enter scope value stmts
termination_by structural stmts => stmts

/-- Evaluates the statements of a block in a scope of their own. -/
def Block.eval (enter : Enter) (scope : ScopeId) : Block → Eval Value
  | .mk _ statements => do
      let inner ← Eval.openInside scope
      evalStmts enter inner .null statements
termination_by structural block => block

end

/-- Runs the body of a function on arguments, with room for so many calls inside each other. -/
def Closure.enter : Nat → Enter
  | 0, _, _ => Eval.fail (.stackOverflow callLimit)
  | room + 1, closure, args => do
      let scope ← Eval.openCall closure args
      Eval.catchReturn (evalStmts (Closure.enter room) scope .null closure.body.statements)

/-- The value of a program with its names bound in the scope `globals`. -/
def Program.evalIn (globals : ScopeId) (program : Program) : Store → Except Fault Value × Store :=
  (evalStmts (Closure.enter callLimit) globals .null program.statements).settle

/-- The value of a single statement. -/
def Stmt.evalIn (globals : ScopeId) (stmt : Stmt) : Store → Except Fault Value × Store :=
  (stmt.eval (Closure.enter callLimit) globals).settle

/-- The value of a single expression. -/
def Expr.evalIn (globals : ScopeId) (expr : Expr) : Store → Except Fault Value × Store :=
  (expr.eval (Closure.enter callLimit) globals).settle

end Scriptlet
