import Scriptlet.Tree.Basic

/-!
# Equality of trees

Two trees are equal when they agree in every node, token, name and value, and that is decidable:
`same` compares two trees node by node, and answers yes exactly for equal ones.
-/

namespace Scriptlet

mutual

/-- Whether two expressions agree in every node and token. -/
def Expr.same : Expr → Expr → Bool
  | .name left, .name right => left = right
  | .int token value, .int token' value' => token = token' && value = value'
  | .bool token value, .bool token' value' => token = token' && value = value'
  | .unary token operand, .unary token' operand' => token = token' && operand.same operand'
  | .binary token left right, .binary token' left' right' =>
      token = token' && left.same left' && right.same right'
  | .suffix token operand, .suffix token' operand' => token = token' && operand.same operand'
  | .cond token test consequence alternative, .cond token' test' consequence' alternative' =>
      token = token' && test.same test' && consequence.same consequence'
        && sameBranch alternative alternative'
  | .function token params body, .function token' params' body' =>
      token = token' && params = params' && body.same body'
  | .call token callee args, .call token' callee' args' =>
      token = token' && callee.same callee' && sameExprs args args'
  | _, _ => false
termination_by structural left => left

/-- Whether two optional branches agree in every node and token. -/
def sameBranch : Option Block → Option Block → Bool
  | none, none => true
  | some left, some right => left.same right
  | _, _ => false
termination_by structural left => left

/-- Whether two lists of expressions agree in every node and token. -/
def sameExprs : List Expr → List Expr → Bool
  | [], [] => true
  | left :: lefts, right :: rights => left.same right && sameExprs lefts rights
  | _, _ => false
termination_by structural left => left

/-- Whether two statements agree in every node and token. -/
def Stmt.same : Stmt → Stmt → Bool
  | .letBind token name value, .letBind token' name' value' =>
      token = token' && name = name' && value.same value'
  | .ret token value, .ret token' value' => token = token' && value.same value'
  | .expr token expr, .expr token' expr' => token = token' && expr.same expr'
  | .block block, .block block' => block.same block'
  | _, _ => false
termination_by structural left => left

/-- Whether two lists of statements agree in every node and token. -/
def sameStmts : List Stmt → List Stmt → Bool
  | [], [] => true
  | left :: lefts, right :: rights => left.same right && sameStmts lefts rights
  | _, _ => false
termination_by structural left => left

/-- Whether two blocks agree in every node and token. -/
def Block.same : Block → Block → Bool
  | .mk token statements, .mk token' statements' =>
      token = token' && sameStmts statements statements'
termination_by structural left => left

end

mutual

theorem Expr.same_self : (tree : Expr) → tree.same tree = true
  | .name _ | .int _ _ | .bool _ _ => by simp [Expr.same]
  | .unary _ operand | .suffix _ operand => by simp [Expr.same, operand.same_self]
  | .binary _ left right => by simp [Expr.same, left.same_self, right.same_self]
  | .cond _ test consequence alternative => by
      simp [Expr.same, test.same_self, consequence.same_self, sameBranch_self alternative]
  | .function _ _ body => by simp [Expr.same, body.same_self]
  | .call _ callee args => by simp [Expr.same, callee.same_self, sameExprs_self args]

theorem sameBranch_self : (branch : Option Block) → sameBranch branch branch = true
  | none => by simp [sameBranch]
  | some block => by simp [sameBranch, block.same_self]

theorem sameExprs_self : (trees : List Expr) → sameExprs trees trees = true
  | [] => by simp [sameExprs]
  | tree :: trees => by simp [sameExprs, tree.same_self, sameExprs_self trees]

theorem Stmt.same_self : (tree : Stmt) → tree.same tree = true
  | .letBind _ _ value | .ret _ value | .expr _ value => by simp [Stmt.same, value.same_self]
  | .block block => by simp [Stmt.same, block.same_self]

theorem sameStmts_self : (trees : List Stmt) → sameStmts trees trees = true
  | [] => by simp [sameStmts]
  | tree :: trees => by simp [sameStmts, tree.same_self, sameStmts_self trees]

theorem Block.same_self : (tree : Block) → tree.same tree = true
  | .mk _ statements => by simp [Block.same, sameStmts_self statements]

end

mutual

theorem Expr.eq_of_same : (left right : Expr) → left.same right = true → left = right
  | .name _, right, agree | .int _ _, right, agree | .bool _ _, right, agree => by
      cases right <;> simp_all [Expr.same]
  | .unary _ operand, right, agree | .suffix _ operand, right, agree => by
      cases right <;> simp_all [Expr.same]
      exact operand.eq_of_same _ agree.2
  | .binary _ left right, other, agree => by
      cases other <;> simp_all [Expr.same]
      exact ⟨left.eq_of_same _ agree.1.2, right.eq_of_same _ agree.2⟩
  | .cond _ test consequence alternative, right, agree => by
      cases right <;> simp_all [Expr.same]
      exact ⟨test.eq_of_same _ agree.1.1.2, consequence.eq_of_same _ agree.1.2,
        eq_of_sameBranch alternative _ agree.2⟩
  | .function _ _ body, right, agree => by
      cases right <;> simp_all [Expr.same]
      exact body.eq_of_same _ agree.2
  | .call _ callee args, right, agree => by
      cases right <;> simp_all [Expr.same]
      exact ⟨callee.eq_of_same _ agree.1.2, eq_of_sameExprs args _ agree.2⟩

theorem eq_of_sameBranch :
    (left right : Option Block) → sameBranch left right = true → left = right
  | none, right, agree => by cases right <;> simp_all [sameBranch]
  | some block, right, agree => by
      cases right <;> simp_all [sameBranch]
      exact block.eq_of_same _ agree

theorem eq_of_sameExprs : (left right : List Expr) → sameExprs left right = true → left = right
  | [], right, agree => by cases right <;> simp_all [sameExprs]
  | tree :: trees, right, agree => by
      cases right <;> simp_all [sameExprs]
      exact ⟨tree.eq_of_same _ agree.1, eq_of_sameExprs trees _ agree.2⟩

theorem Stmt.eq_of_same : (left right : Stmt) → left.same right = true → left = right
  | .letBind _ _ value, right, agree | .ret _ value, right, agree
  | .expr _ value, right, agree => by
      cases right <;> simp_all [Stmt.same]
      exact value.eq_of_same _ agree.2
  | .block block, right, agree => by
      cases right <;> simp_all [Stmt.same]
      exact block.eq_of_same _ agree

theorem eq_of_sameStmts : (left right : List Stmt) → sameStmts left right = true → left = right
  | [], right, agree => by cases right <;> simp_all [sameStmts]
  | tree :: trees, right, agree => by
      cases right <;> simp_all [sameStmts]
      exact ⟨tree.eq_of_same _ agree.1, eq_of_sameStmts trees _ agree.2⟩

theorem Block.eq_of_same : (left right : Block) → left.same right = true → left = right
  | .mk _ statements, .mk _ others, agree => by
      simp_all [Block.same]
      exact eq_of_sameStmts statements others agree.2

end

instance : DecidableEq Expr := fun left right =>
  decidable_of_iff (left.same right = true)
    ⟨left.eq_of_same right, fun equal => equal ▸ left.same_self⟩

instance : DecidableEq Stmt := fun left right =>
  decidable_of_iff (left.same right = true)
    ⟨left.eq_of_same right, fun equal => equal ▸ left.same_self⟩

instance : DecidableEq Block := fun left right =>
  decidable_of_iff (left.same right = true)
    ⟨left.eq_of_same right, fun equal => equal ▸ left.same_self⟩

deriving instance DecidableEq for Program

end Scriptlet
