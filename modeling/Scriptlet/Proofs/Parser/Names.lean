import Scriptlet.Proofs.Parser.Concatenation
import Scriptlet.Proofs.Tree.Nodes

/-!
# Names in trees and in sources

A tree that was read looks up only names that occur as identifiers in its source.
-/

namespace Scriptlet

/-- None of the names is an identifier among the tokens. -/
def Unmentioned (names : List String) (tokens : List Token) : Prop :=
  ∀ token ∈ tokens, token.kind = .ident → token.literal ∉ names

variable {names : List String}

theorem Unmentioned.of_suffix {input rest : List Token} (unmentioned : Unmentioned names input)
    (suffix : rest <:+ input) : Unmentioned names rest :=
  fun token token_mem => unmentioned token (suffix.subset token_mem)

theorem Unmentioned.tail {token : Token} {rest : List Token}
    (unmentioned : Unmentioned names (token :: rest)) : Unmentioned names rest :=
  unmentioned.of_suffix (List.suffix_cons token rest)

theorem Unmentioned.behind {input rest : List Token} {token : Token}
    (unmentioned : Unmentioned names input) (consumes : Consumes input (token :: rest)) :
    Unmentioned names rest :=
  (unmentioned.of_suffix consumes.suffix).tail

namespace Grammar

mutual

theorem Expression.avoids {stratum : Stratum} {nesting : Nat} {input rest : List Token}
    {expr : Expr} : Expression stratum nesting input expr rest → Unmentioned names input →
      Avoids names expr.nodes
  | .tighter _ inner, unmentioned => inner.avoids unmentioned
  | .binary _ _ leftOperand rightOperand, unmentioned => by
      have left := leftOperand.avoids unmentioned
      have right := rightOperand.avoids (unmentioned.behind leftOperand.consumes)
      simpa [Expr.nodes] using ⟨left, right⟩
  | .unary _ operand, unmentioned => by
      simpa [Expr.nodes] using operand.avoids unmentioned.tail
  | .suffix _ operand, unmentioned => by
      simpa [Expr.nodes] using operand.avoids unmentioned
  | .call _ callee arguments, unmentioned => by
      have function := callee.avoids unmentioned
      have args := arguments.avoids (unmentioned.behind callee.consumes)
      simpa [Expr.nodes] using ⟨function, args⟩
  | @Expression.name token _ isIdent, unmentioned => by
      simpa [Expr.nodes, Ident.ofToken] using unmentioned token (by simp) isIdent
  | .int _ _ _, _ => by simp [Expr.nodes]
  | .true _, _ => by simp [Expr.nodes]
  | .false _, _ => by simp [Expr.nodes]
  | .group _ inner _, unmentioned => inner.avoids unmentioned.tail
  | .cond _ _ condition _ branch, unmentioned => by
      have test := condition.avoids unmentioned.tail.tail
      have consequence := branch.avoids (unmentioned.tail.tail.behind condition.consumes)
      simpa [Expr.nodes] using ⟨test, consequence⟩
  | .condElse _ _ condition _ branch _ elseBranch, unmentioned => by
      have test := condition.avoids unmentioned.tail.tail
      have inBranch := unmentioned.tail.tail.behind condition.consumes
      have consequence := branch.avoids inBranch
      have alternative := elseBranch.avoids (inBranch.behind branch.consumes)
      simpa [Expr.nodes] using ⟨test, consequence, alternative⟩
  | .function _ _ parameters block, unmentioned => by
      have body := block.avoids (unmentioned.tail.tail.of_suffix parameters.consumes.suffix)
      simpa [Expr.nodes] using body

theorem Expressions.avoids {nesting : Nat} {input rest : List Token} {exprs : List Expr} :
    Expressions nesting input exprs rest → Unmentioned names input →
      Avoids names (nodesOfExprs exprs)
  | .one expression, unmentioned => by
      simpa [nodesOfExprs] using expression.avoids unmentioned
  | .more expression _ expressions, unmentioned => by
      have first := expression.avoids unmentioned
      have others := expressions.avoids (unmentioned.behind expression.consumes)
      simpa [nodesOfExprs] using ⟨first, others⟩

theorem Arguments.avoids {nesting : Nat} {input rest : List Token} {args : List Expr} :
    Arguments nesting input args rest → Unmentioned names input → Avoids names (nodesOfExprs args)
  | .none _, _ => by simp [nodesOfExprs]
  | .some expressions _, unmentioned => expressions.avoids unmentioned

theorem Statement.avoids {nesting : Nat} {input rest : List Token} {stmt : Stmt} :
    Statement nesting input stmt rest → Unmentioned names input → Avoids names stmt.nodes
  | .letBind _ _ _ value _, unmentioned => by
      simpa [Stmt.nodes] using value.avoids unmentioned.tail.tail.tail
  | .ret _ value _, unmentioned => by
      simpa [Stmt.nodes] using value.avoids unmentioned.tail
  | .expr expression _, unmentioned => by
      simpa [Stmt.nodes] using expression.avoids unmentioned
  | .block inner _, unmentioned => by
      simpa [Stmt.nodes] using inner.avoids unmentioned

theorem Statements.avoids {nesting : Nat} {input rest : List Token} {stmts : List Stmt} :
    Statements nesting input stmts rest → Unmentioned names input →
      Avoids names (nodesOfStmts stmts)
  | .nil, _ => by simp [nodesOfStmts]
  | .cons statement statements, unmentioned => by
      have first := statement.avoids unmentioned
      have others := statements.avoids (unmentioned.of_suffix statement.consumes.suffix)
      simpa [nodesOfStmts] using ⟨first, others⟩

theorem Block.avoids {nesting : Nat} {input rest : List Token} {block : Scriptlet.Block} :
    Block nesting input block rest → Unmentioned names input → Avoids names block.nodes
  | .closed _ statements _, unmentioned => by
      simpa [Scriptlet.Block.nodes] using statements.avoids unmentioned.tail
  | .unclosed _ statements, unmentioned => by
      simpa [Scriptlet.Block.nodes] using statements.avoids unmentioned.tail

end

end Grammar

theorem Program.avoids_of_parse {source : String} {program : Program}
    (parsed : Program.parse source = .ok program)
    (unmentioned : Unmentioned names (tokenize source)) : Avoids names program.nodes := by
  rcases derives_of_read (parse_eq_ok_iff.1 parsed) with ⟨_, _, derived⟩
  exact Grammar.Statements.avoids derived unmentioned

end Scriptlet
