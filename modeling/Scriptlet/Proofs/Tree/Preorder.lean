import Scriptlet.Proofs.Tree.Places

/-!
# What traversals list

A path leads from the top of a program down to a node: it says which child to take at each level.
Equal nodes can stand at many places, but a path leads to one place only. In the lexicographic order
of paths a node comes before the nodes below it, and all nodes below a child come before the next
child.

A traversal that collects the nodes of one sort follows this order and comes to each place once. If
it goes on below the nodes that it collects, it comes to all of them, and otherwise to those that
have no other node of the sort above them. The nodes of other sorts lie in between, and none of them
stops it.
-/

namespace Scriptlet

/-- The number of the child to take, at each level from the top down. -/
abbrev Path := List Nat

namespace Node

/-- The node that a path leads to. -/
def at? (node : Node) : Path → Option Node
  | [] => some node
  | index :: path => node.children[index]?.bind fun child => child.at? path

/-- The node that a path leads to in a row of trees, where its first number says which tree. -/
def amongAt? (nodes : List Node) : Path → Option Node
  | [] => none
  | index :: path => nodes[index]?.bind fun node => node.at? path

theorem length_nodes_lt_of_mem_children {node child : Node} (isChild : child ∈ node.children) :
    child.nodes.length < node.nodes.length := by
  have part : child.nodes.Sublist (node.children.flatMap nodes) :=
    List.sublist_flatten_of_mem (List.mem_map_of_mem isChild)
  rw [node.nodes_eq_cons, List.length_cons]
  exact Nat.lt_succ_of_le part.length_le

/-- What holds of a node as soon as it holds of its children holds of all nodes. -/
theorem induction {motive : Node → Prop}
    (step : ∀ node : Node, (∀ child ∈ node.children, motive child) → motive node) (node : Node) :
    motive node :=
  step node fun child isChild =>
    have := length_nodes_lt_of_mem_children isChild
    induction step child
termination_by node.nodes.length

end Node

/-- The node that a path leads to in a program. The first number says in which statement. -/
def Program.at? (program : Program) (path : Path) : Option Node :=
  Node.amongAt? (program.statements.map .stmt) path

/-! ## Lists in the order of paths -/

section Lists

variable {Item : Type}

/-- Something is found at the path, and unless `deep` nothing is found above it. -/
def Path.Chosen (find : Path → Option Item) (deep : Bool) (path : Path) : Prop :=
  (find path).isSome ∧ (deep ∨ ∀ above, above <+: path → above ≠ path → find above = none)

/-- The items are those that are found at the chosen paths, in the order of the paths and with each
path once. -/
def ListsChosen (find : Path → Option Item) (deep : Bool) (items : List Item) : Prop :=
  ∃ paths : List Path, paths.Pairwise (List.Lex (· < ·)) ∧
    (∀ path, path ∈ paths ↔ path.Chosen find deep) ∧ paths.map find = items.map some

variable {find findRest : Path → Option Item} {deep : Bool} {item : Item}
  {items others : List Item}

theorem Path.chosen_nil_iff : Path.Chosen find deep [] ↔ (find []).isSome := by
  simp [Path.Chosen]

theorem Path.chosen_cons_iff (passed : deep ∨ find [] = none) {index : Nat} {path : Path} :
    Path.Chosen find deep (index :: path) ↔
      path.Chosen (fun path => find (index :: path)) deep := by
  cases deep with
  | true => simp [Path.Chosen]
  | false =>
      have passed : find [] = none := by simpa using passed
      simp only [Path.Chosen, Bool.false_eq_true, false_or]
      apply and_congr_right
      intro _
      constructor
      · intro noneAbove above isPrefix distinct
        exact noneAbove (index :: above) (List.cons_prefix_cons.2 ⟨rfl, isPrefix⟩) (by simpa)
      · intro noneAbove above isPrefix distinct
        rcases List.prefix_cons_iff.1 isPrefix with rfl | ⟨rest, rfl, restPrefix⟩
        · exact passed
        · exact noneAbove rest restPrefix (by simpa using distinct)

theorem Path.not_chosen_cons (found : find [] = some item) (index : Nat) (path : Path) :
    ¬Path.Chosen find false (index :: path) := by
  rintro ⟨_, deep | noneAbove⟩
  · cases deep
  · have hidden := noneAbove [] List.nil_prefix (List.cons_ne_nil _ _).symm
    rw [found] at hidden
    cases hidden

theorem listsChosen_nil (nothing : ∀ path, find path = none) : ListsChosen find deep [] :=
  ⟨[], .nil, by simp [Path.Chosen, nothing], rfl⟩

/-- The path in a row of trees, when one more tree is put in front of the row. -/
def Path.behind (path : Path) : Path := (path.headD 0 + 1) :: path.tail

theorem Path.pairwise_map_behind {paths : List Path} (nonempty : [] ∉ paths)
    (sorted : paths.Pairwise (List.Lex (· < ·))) :
    (paths.map Path.behind).Pairwise (List.Lex (· < ·)) := by
  rw [List.pairwise_map]
  apply sorted.imp_of_mem
  intro left right left_mem right_mem less
  cases less with
  | nil => exact absurd left_mem nonempty
  | cons less => exact .cons less
  | rel less => exact .rel (Nat.succ_lt_succ less)

theorem Path.mem_map_behind_iff {paths : List Path} (nonempty : [] ∉ paths) {index : Nat}
    {path : Path} : (index + 1) :: path ∈ paths.map Path.behind ↔ index :: path ∈ paths := by
  constructor
  · intro path_mem
    rcases List.mem_map.1 path_mem with ⟨_ | ⟨_, _⟩, earlier_mem, moved⟩
    · exact absurd earlier_mem nonempty
    · cases moved
      exact earlier_mem
  · exact List.mem_map_of_mem

theorem map_eq_map_of_nil_not_mem {paths : List Path} (nonempty : [] ∉ paths)
    (same : ∀ index path, findRest (index :: path) = find (index :: path)) :
    paths.map findRest = paths.map find := by
  apply List.map_congr_left
  intro path path_mem
  cases path with
  | nil => exact absurd path_mem nonempty
  | cons index path => exact same index path

/-- What is found in the first tree of a row comes before what is found in the others. -/
theorem ListsChosen.append (passed : find [] = none)
    (first : ListsChosen (fun path => find (0 :: path)) deep items)
    (rest : ListsChosen findRest deep others) (passedRest : findRest [] = none)
    (same : ∀ index path, findRest (index :: path) = find ((index + 1) :: path)) :
    ListsChosen find deep (items ++ others) := by
  rcases first with ⟨paths, sorted, chosen, found⟩
  rcases rest with ⟨pathsRest, sortedRest, chosenRest, foundRest⟩
  have nonempty : [] ∉ pathsRest := by
    simp [chosenRest, Path.chosen_nil_iff, passedRest]
  refine ⟨paths.map (0 :: ·) ++ pathsRest.map Path.behind, ?_, ?_, ?_⟩
  · rw [List.pairwise_append, List.pairwise_map]
    refine ⟨sorted.imp .cons, Path.pairwise_map_behind nonempty sortedRest, ?_⟩
    simp only [List.mem_map]
    rintro _ ⟨path, _, rfl⟩ _ ⟨later, _, rfl⟩
    exact .rel (Nat.zero_lt_succ _)
  · intro path
    rcases path with _ | ⟨_ | index, path⟩
    · simp [Path.behind, Path.chosen_nil_iff, passed]
    · simp [Path.behind, Path.chosen_cons_iff (.inr passed), chosen]
    · have notFirst : (index + 1) :: path ∉ paths.map (0 :: ·) := by simp
      rw [List.mem_append, or_iff_right notFirst, Path.mem_map_behind_iff nonempty, chosenRest,
        Path.chosen_cons_iff (.inr passed), Path.chosen_cons_iff (.inr passedRest)]
      simp only [same]
  · have moved : pathsRest.map findRest = pathsRest.map (find ∘ Path.behind) :=
      map_eq_map_of_nil_not_mem nonempty same
    rw [List.map_append, List.map_append, List.map_map, List.map_map, ← found, ← foundRest, moved]
    rfl

/-- What is found at the top comes before what is found below. -/
theorem ListsChosen.cons (found : find [] = some item)
    (rest : ListsChosen findRest true items) (passed : findRest [] = none)
    (same : ∀ index path, findRest (index :: path) = find (index :: path)) :
    ListsChosen find true (item :: items) := by
  rcases rest with ⟨paths, sorted, chosen, foundBelow⟩
  have nonempty : [] ∉ paths := by
    simp [chosen, Path.chosen_nil_iff, passed]
  refine ⟨[] :: paths, ?_, ?_, ?_⟩
  · refine .cons ?_ sorted
    intro path path_mem
    cases path with
    | nil => exact absurd path_mem nonempty
    | cons => exact .nil
  · intro path
    cases path with
    | nil => simp [Path.chosen_nil_iff, found]
    | cons index path => simp [chosen, Path.chosen_cons_iff, same]
  · rw [List.map_cons, List.map_cons, found, ← foundBelow,
      map_eq_map_of_nil_not_mem nonempty same]

theorem listsChosen_singleton (found : find [] = some item) : ListsChosen find false [item] := by
  refine ⟨[[]], List.pairwise_singleton _ _, ?_, by simp [found]⟩
  intro path
  cases path with
  | nil => simp [Path.chosen_nil_iff, found]
  | cons index path => simp [Path.not_chosen_cons found]

end Lists

/-! ## Traversals node by node -/

section Traversals

variable {State Item : Type}

/-- Traverses a node, then its children. -/
def Node.traverse (traversal : Traversal State) (node : Node) (state : State) : State :=
  match node with
  | .expr tree => tree.traverse traversal state
  | .stmt tree => tree.traverse traversal state
  | .block tree => tree.traverse traversal state

/-- Traverses several nodes in order. -/
def traverseNodes (traversal : Traversal State) (nodes : List Node) (state : State) : State :=
  nodes.foldl (fun state node => node.traverse traversal state) state

theorem traverseExprs_eq_traverseNodes (traversal : Traversal State) (exprs : List Expr)
    (state : State) :
    traverseExprs traversal exprs state = traverseNodes traversal (exprs.map .expr) state := by
  induction exprs generalizing state with
  | nil => rfl
  | cons expr exprs ih => exact ih _

theorem traverseStmts_eq_traverseNodes (traversal : Traversal State) (stmts : List Stmt)
    (state : State) :
    traverseStmts traversal stmts state = traverseNodes traversal (stmts.map .stmt) state := by
  induction stmts generalizing state with
  | nil => rfl
  | cons stmt stmts ih => exact ih _

/-- A traversal meets a node and, if it goes on there, the children of the node. -/
theorem Node.traverse_eq (traversal : Traversal State) (node : Node) (state : State) :
    node.traverse traversal state =
      if (traversal.visit state node).2 then
        traverseNodes traversal node.children (traversal.visit state node).1
      else (traversal.visit state node).1 := by
  rcases visited : traversal.visit state node with ⟨next, _ | _⟩
  · rcases node with expr | stmt | block
    all_goals
      simp only [Traversal.visit] at visited
      simp [Node.traverse, Expr.traverse, Stmt.traverse, Block.traverse, visited]
  · rcases node with expr | stmt | block
    · simp only [Traversal.visit] at visited
      rw [Node.traverse, Expr.traverse, visited]
      cases expr with
      | cond _ _ _ alternative => cases alternative <;> rfl
      | call _ callee args => exact traverseExprs_eq_traverseNodes _ _ _
      | _ => rfl
    · simp only [Traversal.visit] at visited
      rw [Node.traverse, Stmt.traverse, visited]
      cases stmt <;> rfl
    · simp only [Traversal.visit] at visited
      rw [Node.traverse, Block.traverse, visited]
      cases block
      exact traverseStmts_eq_traverseNodes _ _ _

variable {traversal : Traversal (Array Item)} {pick : Node → Option Item} {deep : Bool}

/-- A traversal lists the chosen nodes of several trees if it does so for each of them. -/
theorem Traversal.exists_lists_traverseNodes {nodes : List Node}
    (each : ∀ node ∈ nodes, ∃ items,
      ListsChosen (fun path => (node.at? path).bind pick) deep items ∧
        ∀ seen, (node.traverse traversal seen).toList = seen.toList ++ items) :
    ∃ items, ListsChosen (fun path => (Node.amongAt? nodes path).bind pick) deep items ∧
      ∀ seen, (traverseNodes traversal nodes seen).toList = seen.toList ++ items := by
  induction nodes with
  | nil =>
      refine ⟨[], listsChosen_nil ?_, by simp [traverseNodes]⟩
      rintro (_ | ⟨index, path⟩) <;> rfl
  | cons node nodes ih =>
      rw [List.forall_mem_cons] at each
      rcases each.1 with ⟨items, lists, collected⟩
      rcases ih each.2 with ⟨others, listsRest, collectedRest⟩
      refine ⟨items ++ others, .append rfl lists listsRest rfl fun _ _ => rfl, ?_⟩
      intro seen
      rw [← List.append_assoc, ← collected, ← collectedRest]
      rfl

open Node in
theorem Traversal.Collects.exists_lists_traverse (collects : traversal.Collects pick deep)
    (node : Node) :
    ∃ items, ListsChosen (fun path => (node.at? path).bind pick) deep items ∧
      ∀ seen, (node.traverse traversal seen).toList = seen.toList ++ items := by
  induction node using Node.induction with
  | step node ih =>
      rcases exists_lists_traverseNodes ih with ⟨items, lists, collected⟩
      cases picked : pick node with
      | none =>
          have same : (fun path => (node.at? path).bind pick) =
              fun path => (amongAt? node.children path).bind pick := by
            funext path
            cases path with
            | nil => exact picked
            | cons => rfl
          refine ⟨items, same ▸ lists, fun seen => ?_⟩
          simp [node.traverse_eq, collects seen node, picked, collected]
      | some item =>
          cases deep with
          | false =>
              refine ⟨[item], listsChosen_singleton picked, fun seen => ?_⟩
              simp [node.traverse_eq, collects seen node, picked]
          | true =>
              refine ⟨item :: items, lists.cons picked rfl fun _ _ => rfl, fun seen => ?_⟩
              simp [node.traverse_eq, collects seen node, picked, collected]

end Traversals

namespace Program

theorem lists_traverse {Item : Type} {traversal : Traversal (Array Item)}
    {pick : Node → Option Item} {deep : Bool} (collects : traversal.Collects pick deep)
    (program : Program) :
    ListsChosen (fun path => (program.at? path).bind pick) deep
      (program.traverse traversal #[]).toList := by
  have each := fun node (_ : node ∈ program.statements.map .stmt) =>
    collects.exists_lists_traverse node
  rcases Traversal.exists_lists_traverseNodes each with ⟨items, lists, collected⟩
  rw [Program.traverse, traverseStmts_eq_traverseNodes, collected]
  exact lists

/-- A traversal that collects the expressions of a program lists those to which paths lead, in the
order of the paths and with each path once. If it goes on below them these are all paths that lead
to an expression, and otherwise those without an expression above. The same holds for statements and
for blocks. -/
theorem traversals_exact (program : Program) (deep : Bool) :
    ListsChosen (fun path => (program.at? path).bind Node.expr?) deep (program.exprs deep) ∧
    ListsChosen (fun path => (program.at? path).bind Node.stmt?) deep (program.stmts deep) ∧
    ListsChosen (fun path => (program.at? path).bind Node.block?) deep (program.blocks deep) := by
  refine ⟨lists_traverse ?_ program, lists_traverse ?_ program, lists_traverse ?_ program⟩
  all_goals
    intro seen node
    cases node <;> rfl

end Program

end Scriptlet
