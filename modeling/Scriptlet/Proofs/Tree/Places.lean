import Scriptlet.Proofs.Tree.Nodes

/-!
# Where a node stands

Equal nodes can stand at many places of a program. A place is given by the nodes that enclose it,
the nearest one first. Among these the blocks count: those that are statements, those that are
branches of a condition and those that are bodies of functions. Their number is how deep the place
lies.
-/

namespace Scriptlet

namespace Node

/-- The nodes directly below a node, in the order of the source. -/
def children : Node → List Node
  | .expr (.name _) | .expr (.int _ _) | .expr (.bool _ _) => []
  | .expr (.unary _ operand) | .expr (.suffix _ operand) => [.expr operand]
  | .expr (.binary _ left right) => [.expr left, .expr right]
  | .expr (.cond _ test consequence none) => [.expr test, .block consequence]
  | .expr (.cond _ test consequence (some alternative)) =>
      [.expr test, .block consequence, .block alternative]
  | .expr (.function _ _ body) => [.block body]
  | .expr (.call _ callee args) => .expr callee :: args.map .expr
  | .stmt (.letBind _ _ value) | .stmt (.ret _ value) | .stmt (.expr _ value) => [.expr value]
  | .stmt (.block body) => [.block body]
  | .block body => body.statements.map .stmt

def isBlock : Node → Bool
  | .block _ => true
  | .expr _ | .stmt _ => false

/-- A node and all nodes below it. -/
def nodes : Node → List Node
  | .expr tree => tree.nodes
  | .stmt tree => tree.nodes
  | .block tree => tree.nodes

theorem nodes_eq_cons (node : Node) : node.nodes = node :: node.children.flatMap nodes := by
  rcases node with expr | stmt | block
  · cases expr with
    | cond _ _ _ alternative => cases alternative <;> simp [nodes, children, Expr.nodes]
    | call =>
        simp [nodes, children, Expr.nodes, nodesOfExprs_eq_flatMap, List.flatMap_map]
    | _ => simp [nodes, children, Expr.nodes]
  · cases stmt <;> simp [nodes, children, Stmt.nodes]
  · cases block
    simp [nodes, children, Block.nodes, Block.statements, nodesOfStmts_eq_flatMap, List.flatMap_map]

theorem mem_nodes_self (node : Node) : node ∈ node.nodes := by
  rw [nodes_eq_cons]
  exact List.mem_cons_self

theorem nodes_subset_of_mem_children {node child : Node} (isChild : child ∈ node.children) :
    child.nodes ⊆ node.nodes := by
  intro inside inside_mem
  rw [node.nodes_eq_cons]
  exact List.mem_cons_of_mem _ (List.mem_flatMap.2 ⟨child, isChild, inside_mem⟩)

/-- Only a block has statements directly below it. -/
theorem stmt_not_mem_children {node : Node} (noBlock : node.isBlock = false) (stmt : Stmt) :
    .stmt stmt ∉ node.children := by
  rcases node with expr | stmt | block
  · cases expr with
    | cond _ _ _ alternative => cases alternative <;> simp [children]
    | _ => simp [children]
  · cases stmt <;> simp [children]
  · cases noBlock

end Node

/-- The node stands in the program with these nodes around it, the nearest one first. -/
inductive Program.Places (program : Program) : Node → List Node → Prop
  | top {stmt : Stmt} (stmt_mem : stmt ∈ program.statements) : Places program (.stmt stmt) []
  | inside {node child : Node} {around : List Node} (outer : Places program node around)
      (isChild : child ∈ node.children) : Places program child (node :: around)

theorem Program.Places.nodes_subset {program : Program} {node : Node} {around : List Node}
    (placed : program.Places node around) : node.nodes ⊆ program.nodes := by
  induction placed with
  | @top stmt stmt_mem =>
      intro inside inside_mem
      rw [Program.nodes, nodesOfStmts_eq_flatMap]
      exact List.mem_flatMap.2 ⟨stmt, stmt_mem, inside_mem⟩
  | inside _ isChild ih =>
      exact fun _ inside_mem => ih (Node.nodes_subset_of_mem_children isChild inside_mem)

theorem Program.Places.mem_nodes {program : Program} {node : Node} {around : List Node}
    (placed : program.Places node around) : node ∈ program.nodes :=
  placed.nodes_subset node.mem_nodes_self

/-- How many scopes there are at a place: the global one, and one for each block around it. -/
def lexicalDepth (around : List Node) : Nat := 1 + around.countP Node.isBlock

theorem lexicalDepth_cons_of_isBlock_eq_false {node : Node} (notBlock : node.isBlock = false)
    (around : List Node) : lexicalDepth (node :: around) = lexicalDepth around := by
  simp [lexicalDepth, notBlock]

@[simp]
theorem lexicalDepth_block (block : Block) (around : List Node) :
    lexicalDepth (.block block :: around) = lexicalDepth around + 1 := by
  simp [lexicalDepth, List.countP_cons, Node.isBlock, Nat.add_assoc]

end Scriptlet
