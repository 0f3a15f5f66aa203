import Scriptlet.Tree.Basic

/-!
# Traversing trees

A traversal meets the nodes of a tree from the root down, children in the order of the source. At
each node it updates its state and says whether to go on to the children. Expressions, statements
and blocks are the three sorts of node; a traversal that has nothing to say about a sort passes
through its nodes.
-/

namespace Scriptlet

/-- What to do at a node of each sort: the new state, and whether to go on to the children. -/
structure Traversal (State : Type) where
  expr : Expr → State → State × Bool := fun _ state => (state, true)
  stmt : Stmt → State → State × Bool := fun _ state => (state, true)
  block : Block → State → State × Bool := fun _ state => (state, true)

variable {State : Type}

mutual

/-- Traverses an expression, then its children. -/
def Expr.traverse (traversal : Traversal State) (expr : Expr) (state : State) : State :=
  match traversal.expr expr state with
  | (state, false) => state
  | (state, true) =>
    match expr with
    | .name _ | .int _ _ | .bool _ _ => state
    | .unary _ operand | .suffix _ operand => operand.traverse traversal state
    | .binary _ left right => right.traverse traversal (left.traverse traversal state)
    | .cond _ test consequence none =>
        consequence.traverse traversal (test.traverse traversal state)
    | .cond _ test consequence (some alternative) =>
        alternative.traverse traversal
          (consequence.traverse traversal (test.traverse traversal state))
    | .function _ _ body => body.traverse traversal state
    | .call _ callee args => traverseExprs traversal args (callee.traverse traversal state)
termination_by structural expr

/-- Traverses several expressions in order. -/
def traverseExprs (traversal : Traversal State) (exprs : List Expr) (state : State) : State :=
  match exprs with
  | [] => state
  | expr :: exprs => traverseExprs traversal exprs (expr.traverse traversal state)
termination_by structural exprs

/-- Traverses a statement, then its children. -/
def Stmt.traverse (traversal : Traversal State) (stmt : Stmt) (state : State) : State :=
  match traversal.stmt stmt state with
  | (state, false) => state
  | (state, true) =>
    match stmt with
    | .letBind _ _ value | .ret _ value | .expr _ value => value.traverse traversal state
    | .block block => block.traverse traversal state
termination_by structural stmt

/-- Traverses several statements in order. -/
def traverseStmts (traversal : Traversal State) (stmts : List Stmt) (state : State) : State :=
  match stmts with
  | [] => state
  | stmt :: stmts => traverseStmts traversal stmts (stmt.traverse traversal state)
termination_by structural stmts

/-- Traverses a block, then its statements. -/
def Block.traverse (traversal : Traversal State) (block : Block) (state : State) : State :=
  match traversal.block block state with
  | (state, false) => state
  | (state, true) =>
    match block with
    | .mk _ statements => traverseStmts traversal statements state
termination_by structural block

end

namespace Program

/-- Traverses the statements of a program in order. -/
def traverse (traversal : Traversal State) (program : Program) (state : State) : State :=
  traverseStmts traversal program.statements state

/-- The expressions of a program in the order of a traversal: all of them if `deep`, and otherwise
those that stand in no other expression. -/
def exprs (deep : Bool) (program : Program) : List Expr :=
  let traversal : Traversal (Array Expr) := { expr := fun expr seen => (seen.push expr, deep) }
  (program.traverse traversal #[]).toList

/-- The statements of a program in the order of a traversal: all of them if `deep`, and otherwise
those that stand in no other statement. -/
def stmts (deep : Bool) (program : Program) : List Stmt :=
  let traversal : Traversal (Array Stmt) := { stmt := fun stmt seen => (seen.push stmt, deep) }
  (program.traverse traversal #[]).toList

/-- The blocks of a program in the order of a traversal: all of them if `deep`, and otherwise those
that stand in no other block. -/
def blocks (deep : Bool) (program : Program) : List Block :=
  let traversal : Traversal (Array Block) := { block := fun block seen => (seen.push block, deep) }
  (program.traverse traversal #[]).toList

end Program

end Scriptlet
