import Scriptlet.Proofs.Tree.Nodes
import Scriptlet.Tree.Consistency

/-!
# The tokens of a node

What a node holds besides its children: tokens, some of them with a role, and names. The check for
mismatches goes on at every node, so it finds what a look at the roles of all nodes finds, in the
same order.
-/

namespace Scriptlet

/-- The tokens of a node, those of its children left out. -/
def Node.tokens : Node → List Token
  | .expr (.function token params _) => token :: params.map Ident.token
  | .expr other => [other.token]
  | .stmt (.letBind token name _) => [token, name.token]
  | .stmt (.ret token _) => [token]
  | .stmt (.expr token _) => [token]
  | .stmt (.block _) => []
  | .block braces => [braces.token]

/-- The names that a node looks up or binds. -/
def Node.idents : Node → List Ident
  | .expr (.name ident) => [ident]
  | .expr (.function _ params _) => params
  | .stmt (.letBind _ name _) => [name]
  | _ => []

/-- The tokens of a node that have a job, each with its role. -/
def Node.roles : Node → List (Role × Token)
  | .expr (.function token params _) =>
      (.function, token) :: params.map fun param => (.parameter, param.token)
  | .expr other => [(other.role, other.token)]
  | .stmt (.letBind token name _) => [(.letBind, token), (.letName, name.token)]
  | .stmt (.ret token _) => [(.ret, token)]
  | .stmt (.expr _ _) => []
  | .stmt (.block _) => []
  | .block braces => [(.block, braces.token)]

namespace Role

/-- The tokens that their roles do not allow. -/
def mismatches (entries : List (Role × Token)) : List Mismatch :=
  (entries.filter fun entry => entry.2.kind ∉ entry.1.allowed).map fun entry =>
    ⟨entry.1, entry.2.kind⟩

theorem mismatches_append (entries others : List (Role × Token)) :
    mismatches (entries ++ others) = mismatches entries ++ mismatches others := by
  simp [mismatches]

theorem mismatches_eq_nil_iff {entries : List (Role × Token)} :
    mismatches entries = [] ↔ ∀ entry ∈ entries, entry.2.kind ∈ entry.1.allowed := by
  simp [mismatches]

theorem toList_check (role : Role) (token : Token) (found : Array Mismatch) :
    (role.check token found).toList = found.toList ++ mismatches [(role, token)] := by
  by_cases allowed : token.kind ∈ role.allowed
  · simp [check, mismatches, allowed]
  · simp [check, mismatches, allowed]

theorem toList_foldl_check (role : Role) (idents : List Ident) (found : Array Mismatch) :
    (idents.foldl (fun found ident => role.check ident.token found) found).toList =
      found.toList ++ mismatches (idents.map fun ident => (role, ident.token)) := by
  induction idents generalizing found with
  | nil => simp [mismatches]
  | cons ident idents ih =>
      rw [List.foldl_cons, ih, toList_check, List.append_assoc, ← mismatches_append]
      rfl

end Role

namespace Traversal

theorem goesOn_consistency : consistency.GoesOn := by
  intro found node
  rcases node with expr | stmt | block
  · cases expr <;> rfl
  · cases stmt <;> rfl
  · rfl

theorem toList_visit_consistency (found : Array Mismatch) (node : Node) :
    (consistency.visit found node).1.toList = found.toList ++ Role.mismatches node.roles := by
  rcases node with expr | stmt | block
  · cases expr with
    | function token params body =>
        have opened : (consistency.visit found (.expr (.function token params body))).1 =
            params.foldl (fun found param => Role.parameter.check param.token found)
              (Role.function.check token found) := rfl
        rw [opened, Role.toList_foldl_check, Role.toList_check, List.append_assoc,
          ← Role.mismatches_append]
        rfl
    | _ => exact Role.toList_check _ _ _
  · cases stmt with
    | letBind token name value =>
        have opened : (consistency.visit found (.stmt (.letBind token name value))).1 =
            Role.letName.check name.token (Role.letBind.check token found) := rfl
        rw [opened, Role.toList_check, Role.toList_check, List.append_assoc,
          ← Role.mismatches_append]
        rfl
    | ret token value => exact Role.toList_check _ _ _
    | expr token expr => exact (List.append_nil _).symm
    | block block => exact (List.append_nil _).symm
  · exact Role.toList_check _ _ _

theorem toList_pass_consistency (nodes : List Node) (found : Array Mismatch) :
    (consistency.pass nodes found).toList =
      found.toList ++ Role.mismatches (nodes.flatMap Node.roles) := by
  induction nodes generalizing found with
  | nil => simp [Role.mismatches]
  | cons node nodes ih =>
      rw [pass_cons, ih, toList_visit_consistency, List.append_assoc, ← Role.mismatches_append]
      rfl

end Traversal

namespace Program

/-- The mismatches of a program are those of its nodes, in the order of the nodes. -/
theorem mismatches_eq (program : Program) :
    program.mismatches = Role.mismatches (program.nodes.flatMap Node.roles) := by
  have opened : program.mismatches =
      (traverseStmts .consistency program.statements #[]).toList := rfl
  rw [opened, traverseStmts_eq_pass Traversal.goesOn_consistency, Traversal.toList_pass_consistency]
  rfl

theorem mismatches_eq_nil_iff {program : Program} :
    program.mismatches = [] ↔
      ∀ node ∈ program.nodes, ∀ entry ∈ node.roles, entry.2.kind ∈ entry.1.allowed := by
  rw [mismatches_eq, Role.mismatches_eq_nil_iff]
  simp only [List.mem_flatMap]
  constructor
  · intro allowed node node_mem entry entry_mem
    exact allowed entry ⟨node, node_mem, entry_mem⟩
  · rintro allowed entry ⟨node, node_mem, entry_mem⟩
    exact allowed node node_mem entry entry_mem

end Program

end Scriptlet
