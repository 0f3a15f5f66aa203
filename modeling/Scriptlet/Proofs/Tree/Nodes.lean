import Scriptlet.Tree.Traversal

/-!
# The nodes of a tree

A traversal that goes on at every node does the same as a pass over the list of all nodes. The lists
of nodes are made without any traversal, so that what is collected on the way can be told from the
tree alone.
-/

namespace Scriptlet

/-- A node of a tree, of one of the three sorts. -/
inductive Node where
  | expr (expr : Expr)
  | stmt (stmt : Stmt)
  | block (block : Block)

mutual

/-- The nodes of an expression, a node before its children. -/
def Expr.nodes : Expr → List Node
  | .name ident => [.expr (.name ident)]
  | .int token value => [.expr (.int token value)]
  | .bool token value => [.expr (.bool token value)]
  | .unary token operand => .expr (.unary token operand) :: operand.nodes
  | .binary token left right => .expr (.binary token left right) :: (left.nodes ++ right.nodes)
  | .suffix token operand => .expr (.suffix token operand) :: operand.nodes
  | .cond token test consequence none =>
      .expr (.cond token test consequence none) :: (test.nodes ++ consequence.nodes)
  | .cond token test consequence (some alternative) =>
      .expr (.cond token test consequence (some alternative)) ::
        (test.nodes ++ consequence.nodes ++ alternative.nodes)
  | .function token params body => .expr (.function token params body) :: body.nodes
  | .call token callee args => .expr (.call token callee args) :: (callee.nodes ++ nodesOfExprs args)
termination_by structural expr => expr

def nodesOfExprs : List Expr → List Node
  | [] => []
  | expr :: exprs => expr.nodes ++ nodesOfExprs exprs
termination_by structural exprs => exprs

def Stmt.nodes : Stmt → List Node
  | .letBind token name value => .stmt (.letBind token name value) :: value.nodes
  | .ret token value => .stmt (.ret token value) :: value.nodes
  | .expr token expr => .stmt (.expr token expr) :: expr.nodes
  | .block block => .stmt (.block block) :: block.nodes
termination_by structural stmt => stmt

def nodesOfStmts : List Stmt → List Node
  | [] => []
  | stmt :: stmts => stmt.nodes ++ nodesOfStmts stmts
termination_by structural stmts => stmts

def Block.nodes : Block → List Node
  | .mk token statements => .block (.mk token statements) :: nodesOfStmts statements
termination_by structural block => block

end

def Program.nodes (program : Program) : List Node := nodesOfStmts program.statements

theorem nodesOfExprs_eq_flatMap (exprs : List Expr) :
    nodesOfExprs exprs = exprs.flatMap Expr.nodes := by
  induction exprs with
  | nil => rfl
  | cons expr exprs ih => simp [nodesOfExprs, ih]

theorem nodesOfStmts_eq_flatMap (stmts : List Stmt) :
    nodesOfStmts stmts = stmts.flatMap Stmt.nodes := by
  induction stmts with
  | nil => rfl
  | cons stmt stmts ih => simp [nodesOfStmts, ih]

namespace Traversal

variable {State : Type}

def visit (traversal : Traversal State) (state : State) : Node → State × Bool
  | .expr expr => traversal.expr expr state
  | .stmt stmt => traversal.stmt stmt state
  | .block block => traversal.block block state

/-- The state of a traversal that passes over some nodes, whatever it says about their children. -/
def pass (traversal : Traversal State) (nodes : List Node) (state : State) : State :=
  nodes.foldl (fun state node => (traversal.visit state node).1) state

def GoesOn (traversal : Traversal State) : Prop :=
  ∀ state node, (traversal.visit state node).2 = true

@[simp]
theorem pass_nil (traversal : Traversal State) (state : State) : traversal.pass [] state = state :=
  rfl

@[simp]
theorem pass_append (traversal : Traversal State) (nodes others : List Node) (state : State) :
    traversal.pass (nodes ++ others) state = traversal.pass others (traversal.pass nodes state) :=
  List.foldl_append

@[simp]
theorem pass_cons (traversal : Traversal State) (node : Node) (nodes : List Node) (state : State) :
    traversal.pass (node :: nodes) state =
      traversal.pass nodes (traversal.visit state node).1 :=
  rfl

variable {traversal : Traversal State}

theorem GoesOn.expr_eq (goesOn : traversal.GoesOn) (expr : Expr) (state : State) :
    traversal.expr expr state = ((traversal.visit state (.expr expr)).1, true) :=
  Prod.ext rfl (goesOn state (.expr expr))

theorem GoesOn.stmt_eq (goesOn : traversal.GoesOn) (stmt : Stmt) (state : State) :
    traversal.stmt stmt state = ((traversal.visit state (.stmt stmt)).1, true) :=
  Prod.ext rfl (goesOn state (.stmt stmt))

theorem GoesOn.block_eq (goesOn : traversal.GoesOn) (block : Block) (state : State) :
    traversal.block block state = ((traversal.visit state (.block block)).1, true) :=
  Prod.ext rfl (goesOn state (.block block))

end Traversal

variable {State : Type}

mutual

theorem Expr.traverse_eq_pass {traversal : Traversal State} (goesOn : traversal.GoesOn) :
    (expr : Expr) → (state : State) →
      expr.traverse traversal state = traversal.pass expr.nodes state
  | .name ident, state => by
      rw [Expr.traverse, goesOn.expr_eq]
      simp [Expr.nodes]
  | .int token value, state => by
      rw [Expr.traverse, goesOn.expr_eq]
      simp [Expr.nodes]
  | .bool token value, state => by
      rw [Expr.traverse, goesOn.expr_eq]
      simp [Expr.nodes]
  | .unary token operand, state => by
      rw [Expr.traverse, goesOn.expr_eq]
      simp [Expr.nodes, operand.traverse_eq_pass goesOn]
  | .binary token left right, state => by
      rw [Expr.traverse, goesOn.expr_eq]
      simp [Expr.nodes, left.traverse_eq_pass goesOn, right.traverse_eq_pass goesOn]
  | .suffix token operand, state => by
      rw [Expr.traverse, goesOn.expr_eq]
      simp [Expr.nodes, operand.traverse_eq_pass goesOn]
  | .cond token test consequence none, state => by
      rw [Expr.traverse, goesOn.expr_eq]
      simp [Expr.nodes, test.traverse_eq_pass goesOn, consequence.traverse_eq_pass goesOn]
  | .cond token test consequence (some alternative), state => by
      rw [Expr.traverse, goesOn.expr_eq]
      simp [Expr.nodes, test.traverse_eq_pass goesOn, consequence.traverse_eq_pass goesOn,
        alternative.traverse_eq_pass goesOn]
  | .function token params body, state => by
      rw [Expr.traverse, goesOn.expr_eq]
      simp [Expr.nodes, body.traverse_eq_pass goesOn]
  | .call token callee args, state => by
      rw [Expr.traverse, goesOn.expr_eq]
      simp [Expr.nodes, callee.traverse_eq_pass goesOn, traverseExprs_eq_pass goesOn args]

theorem traverseExprs_eq_pass {traversal : Traversal State} (goesOn : traversal.GoesOn) :
    (exprs : List Expr) → (state : State) →
      traverseExprs traversal exprs state = traversal.pass (nodesOfExprs exprs) state
  | [], state => rfl
  | expr :: exprs, state => by
      simp [traverseExprs, nodesOfExprs, expr.traverse_eq_pass goesOn,
        traverseExprs_eq_pass goesOn exprs]

theorem Stmt.traverse_eq_pass {traversal : Traversal State} (goesOn : traversal.GoesOn) :
    (stmt : Stmt) → (state : State) →
      stmt.traverse traversal state = traversal.pass stmt.nodes state
  | .letBind token name value, state => by
      rw [Stmt.traverse, goesOn.stmt_eq]
      simp [Stmt.nodes, value.traverse_eq_pass goesOn]
  | .ret token value, state => by
      rw [Stmt.traverse, goesOn.stmt_eq]
      simp [Stmt.nodes, value.traverse_eq_pass goesOn]
  | .expr token expr, state => by
      rw [Stmt.traverse, goesOn.stmt_eq]
      simp [Stmt.nodes, expr.traverse_eq_pass goesOn]
  | .block block, state => by
      rw [Stmt.traverse, goesOn.stmt_eq]
      simp [Stmt.nodes, block.traverse_eq_pass goesOn]

theorem traverseStmts_eq_pass {traversal : Traversal State} (goesOn : traversal.GoesOn) :
    (stmts : List Stmt) → (state : State) →
      traverseStmts traversal stmts state = traversal.pass (nodesOfStmts stmts) state
  | [], state => rfl
  | stmt :: stmts, state => by
      simp [traverseStmts, nodesOfStmts, stmt.traverse_eq_pass goesOn,
        traverseStmts_eq_pass goesOn stmts]

theorem Block.traverse_eq_pass {traversal : Traversal State} (goesOn : traversal.GoesOn) :
    (block : Block) → (state : State) →
      block.traverse traversal state = traversal.pass block.nodes state
  | .mk token statements, state => by
      rw [Block.traverse, goesOn.block_eq]
      simp [Block.nodes, traverseStmts_eq_pass goesOn statements]

end

namespace Node

/-- The expression that a node is. -/
def expr? : Node → Option Expr
  | .expr tree => some tree
  | .stmt _ | .block _ => none

/-- The statement that a node is. -/
def stmt? : Node → Option Stmt
  | .stmt tree => some tree
  | .expr _ | .block _ => none

/-- The block that a node is. -/
def block? : Node → Option Block
  | .block tree => some tree
  | .expr _ | .stmt _ => none

theorem expr?_eq_some_iff {node : Node} {expr : Expr} :
    node.expr? = some expr ↔ node = .expr expr := by
  cases node <;> simp [expr?]

theorem block?_eq_some_iff {node : Node} {block : Block} :
    node.block? = some block ↔ node = .block block := by
  cases node <;> simp [block?]

end Node

section Collects

variable {Item : Type} {traversal : Traversal (Array Item)} {pick : Node → Option Item}

/-- The traversal collects what is picked of each node, and goes on below it only if `deep`. At all
other nodes it goes on. -/
def Traversal.Collects (traversal : Traversal (Array Item)) (pick : Node → Option Item)
    (deep : Bool) : Prop :=
  ∀ seen node, traversal.visit seen node =
    (pick node).elim (seen, true) fun item => (seen.push item, deep)

theorem Traversal.Collects.goesOn (collects : traversal.Collects pick true) :
    traversal.GoesOn := by
  intro seen node
  rw [collects]
  cases pick node <;> rfl

theorem Traversal.Collects.toList_pass (collects : traversal.Collects pick true)
    (nodes : List Node) (seen : Array Item) :
    (traversal.pass nodes seen).toList = seen.toList ++ nodes.filterMap pick := by
  induction nodes generalizing seen with
  | nil => simp
  | cons node nodes ih =>
      rw [pass_cons, ih, collects]
      cases picked : pick node <;> simp [picked]

/-- What is collected at every depth is what is picked of the nodes. -/
theorem Program.toList_traverse (collects : traversal.Collects pick true) (program : Program) :
    (program.traverse traversal #[]).toList = program.nodes.filterMap pick := by
  rw [Program.traverse, traverseStmts_eq_pass collects.goesOn, collects.toList_pass]
  rfl

end Collects

theorem Program.mem_exprs_iff {program : Program} {expr : Expr} :
    expr ∈ program.exprs true ↔ .expr expr ∈ program.nodes := by
  have listed : program.exprs true = program.nodes.filterMap Node.expr? :=
    toList_traverse (fun _ node => by cases node <;> rfl) program
  simp [listed, Node.expr?_eq_some_iff]

theorem Program.mem_blocks_iff {program : Program} {block : Block} :
    block ∈ program.blocks true ↔ .block block ∈ program.nodes := by
  have listed : program.blocks true = program.nodes.filterMap Node.block? :=
    toList_traverse (fun _ node => by cases node <;> rfl) program
  simp [listed, Node.block?_eq_some_iff]

/-- None of the names is looked up at one of the nodes. -/
def Avoids (names : List String) (nodes : List Node) : Prop :=
  ∀ ident, .expr (.name ident) ∈ nodes → ident.name ∉ names

section Avoids

variable {names : List String}

@[simp]
theorem avoids_nil : Avoids names [] := by
  simp [Avoids]

@[simp]
theorem avoids_cons_iff {node : Node} {nodes : List Node} :
    Avoids names (node :: nodes) ↔
      (∀ ident, node = .expr (.name ident) → ident.name ∉ names) ∧ Avoids names nodes := by
  simp only [Avoids, List.mem_cons]
  grind

@[simp]
theorem avoids_append_iff {nodes others : List Node} :
    Avoids names (nodes ++ others) ↔ Avoids names nodes ∧ Avoids names others := by
  simp only [Avoids, List.mem_append]
  grind

theorem Avoids.mono {nodes larger : List Node} (avoids : Avoids names larger)
    (subset : nodes ⊆ larger) : Avoids names nodes :=
  fun ident ident_mem => avoids ident (subset ident_mem)

end Avoids

end Scriptlet
