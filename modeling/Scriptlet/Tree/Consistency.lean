import Scriptlet.Tree.Role
import Scriptlet.Tree.Traversal

/-!
# Consistency of trees with their tokens

A tree built by hand may carry any token anywhere. `Program.mismatches` traverses a tree and reports
every token that its role does not allow, in the order of the traversal: a node's own token first,
then the tokens of its parameters or of the name it binds, then its children.
-/

namespace Scriptlet

/-- A token kind found in a role that does not allow it. -/
structure Mismatch where
  role : Role
  kind : Kind
  deriving DecidableEq, Repr

/-- The report on a mismatch. -/
def Mismatch.message (mismatch : Mismatch) : String :=
  mismatch.role.label ++ " node carries a " ++ mismatch.kind.label ++ " token"

/-- The mismatch of a token in a role, if there is one, behind those found before. -/
def Role.check (role : Role) (token : Token) (found : Array Mismatch) : Array Mismatch :=
  if token.kind ∈ role.allowed then found else found.push ⟨role, token.kind⟩

/-- The traversal that checks every token against its role. -/
def Traversal.consistency : Traversal (Array Mismatch) where
  expr expr found :=
    let found := expr.role.check expr.token found
    match expr with
    | .function _ params _ =>
        (params.foldl (fun found param => Role.parameter.check param.token found) found, true)
    | _ => (found, true)
  stmt stmt found :=
    match stmt with
    | .letBind token name _ =>
        (Role.letName.check name.token (Role.letBind.check token found), true)
    | .ret token _ => (Role.ret.check token found, true)
    | .expr _ _ | .block _ => (found, true)
  block block found := (Role.block.check block.token found, true)

/-- The tokens of a program that their roles do not allow. -/
def Program.mismatches (program : Program) : List Mismatch :=
  (program.traverse .consistency #[]).toList

end Scriptlet
