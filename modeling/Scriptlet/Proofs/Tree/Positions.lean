import Scriptlet.Proofs.Tree.Roles
import Scriptlet.Token.Precedence

/-!
# The check of tokens is exact

The positions of a tree that ask for a certain token, listed without any traversal: a node comes
before its children, and a parameter or the name of a `let` comes right after its node. What each of
them asks for is told by what a token can do, so an operator is one that can continue an expression
in the way of its node. The check reports the positions that are filled with something else, all of
them and in this order.

An expression statement asks for nothing, and of a token only the kind counts. So the check does not
see any texts, names and values.
-/

namespace Scriptlet

/-- The role can be played by a token of this kind. -/
def Role.Takes (role : Role) (kind : Kind) : Prop :=
  match role with
  | identifier | parameter | letName => kind = .ident
  | integer => kind = .int
  | boolean => kind = .kwTrue ∨ kind = .kwFalse
  | unary => kind = .minus ∨ kind = .bang
  | binary => ∃ precedence, kind.continuation? = some (.binary precedence)
  | suffix => kind.continuation? = some .suffix
  | call => kind.continuation? = some .call
  | cond => kind = .kwIf
  | function => kind = .kwFn
  | letBind => kind = .kwLet
  | ret => kind = .kwReturn
  | block => kind = .lbrace

theorem Role.mem_allowed_iff {role : Role} {kind : Kind} :
    kind ∈ role.allowed ↔ role.Takes kind := by
  cases role with
  | binary | suffix | call => cases kind <;> simp [allowed, Takes, Kind.continuation?]
  | _ => simp [allowed, Takes]

instance (role : Role) (kind : Kind) : Decidable (role.Takes kind) :=
  decidable_of_iff _ Role.mem_allowed_iff

mutual

/-- The positions of an expression, each with its role and the token that fills it. -/
def Expr.positions : Expr → List (Role × Token)
  | .name ident => [(.identifier, ident.token)]
  | .int token _ => [(.integer, token)]
  | .bool token _ => [(.boolean, token)]
  | .unary token operand => (.unary, token) :: operand.positions
  | .binary token left right => (.binary, token) :: (left.positions ++ right.positions)
  | .suffix token operand => (.suffix, token) :: operand.positions
  | .cond token test consequence none => (.cond, token) :: (test.positions ++ consequence.positions)
  | .cond token test consequence (some alternative) =>
      (.cond, token) :: (test.positions ++ consequence.positions ++ alternative.positions)
  | .function token params body =>
      (.function, token) :: (params.map fun param => (.parameter, param.token)) ++ body.positions
  | .call token callee args => (.call, token) :: (callee.positions ++ positionsOfExprs args)
termination_by structural expr => expr

def positionsOfExprs : List Expr → List (Role × Token)
  | [] => []
  | expr :: exprs => expr.positions ++ positionsOfExprs exprs
termination_by structural exprs => exprs

def Stmt.positions : Stmt → List (Role × Token)
  | .letBind token name value => (.letBind, token) :: (.letName, name.token) :: value.positions
  | .ret token value => (.ret, token) :: value.positions
  | .expr _ expr => expr.positions
  | .block block => block.positions
termination_by structural stmt => stmt

def positionsOfStmts : List Stmt → List (Role × Token)
  | [] => []
  | stmt :: stmts => stmt.positions ++ positionsOfStmts stmts
termination_by structural stmts => stmts

def Block.positions : Block → List (Role × Token)
  | .mk token statements => (.block, token) :: positionsOfStmts statements
termination_by structural block => block

end

def Program.positions (program : Program) : List (Role × Token) :=
  positionsOfStmts program.statements

mutual

theorem Expr.flatMap_roles : (expr : Expr) → expr.nodes.flatMap Node.roles = expr.positions
  | .name _ | .int _ _ | .bool _ _ => rfl
  | .unary _ operand | .suffix _ operand => by
      simp [Expr.nodes, Expr.positions, Node.roles, Expr.role, Expr.token, operand.flatMap_roles]
  | .binary _ left right => by
      simp [Expr.nodes, Expr.positions, Node.roles, Expr.role, Expr.token, left.flatMap_roles,
        right.flatMap_roles]
  | .cond _ test consequence none => by
      simp [Expr.nodes, Expr.positions, Node.roles, Expr.role, Expr.token, test.flatMap_roles,
        consequence.flatMap_roles]
  | .cond _ test consequence (some alternative) => by
      simp [Expr.nodes, Expr.positions, Node.roles, Expr.role, Expr.token, test.flatMap_roles,
        consequence.flatMap_roles, alternative.flatMap_roles]
  | .function _ _ body => by simp [Expr.nodes, Expr.positions, Node.roles, body.flatMap_roles]
  | .call _ callee args => by
      simp [Expr.nodes, Expr.positions, Node.roles, Expr.role, Expr.token, callee.flatMap_roles,
        flatMap_roles_exprs args]

theorem flatMap_roles_exprs : (exprs : List Expr) →
    (nodesOfExprs exprs).flatMap Node.roles = positionsOfExprs exprs
  | [] => rfl
  | expr :: exprs => by
      simp [nodesOfExprs, positionsOfExprs, expr.flatMap_roles, flatMap_roles_exprs exprs]

theorem Stmt.flatMap_roles : (stmt : Stmt) → stmt.nodes.flatMap Node.roles = stmt.positions
  | .letBind _ _ value | .ret _ value | .expr _ value => by
      simp [Stmt.nodes, Stmt.positions, Node.roles, value.flatMap_roles]
  | .block block => by simp [Stmt.nodes, Stmt.positions, Node.roles, block.flatMap_roles]

theorem flatMap_roles_stmts : (stmts : List Stmt) →
    (nodesOfStmts stmts).flatMap Node.roles = positionsOfStmts stmts
  | [] => rfl
  | stmt :: stmts => by
      simp [nodesOfStmts, positionsOfStmts, stmt.flatMap_roles, flatMap_roles_stmts stmts]

theorem Block.flatMap_roles : (block : Block) → block.nodes.flatMap Node.roles = block.positions
  | .mk _ statements => by
      simp [Block.nodes, Block.positions, Node.roles, Block.token, flatMap_roles_stmts statements]

end

/-- The token with its kind only. -/
def Token.bare (token : Token) : Token := ⟨token.kind, ""⟩

def Ident.bare (ident : Ident) : Ident := ⟨ident.token.bare, ""⟩

mutual

/-- The expression with its shape and the kinds of its tokens only: without texts, names and values,
and without the tokens of the expression statements inside. -/
def Expr.bare : Expr → Expr
  | .name ident => .name ident.bare
  | .int token _ => .int token.bare 0
  | .bool token _ => .bool token.bare false
  | .unary token operand => .unary token.bare operand.bare
  | .binary token left right => .binary token.bare left.bare right.bare
  | .suffix token operand => .suffix token.bare operand.bare
  | .cond token test consequence none => .cond token.bare test.bare consequence.bare none
  | .cond token test consequence (some alternative) =>
      .cond token.bare test.bare consequence.bare (some alternative.bare)
  | .function token params body => .function token.bare (params.map Ident.bare) body.bare
  | .call token callee args => .call token.bare callee.bare (bareExprs args)
termination_by structural expr => expr

def bareExprs : List Expr → List Expr
  | [] => []
  | expr :: exprs => expr.bare :: bareExprs exprs
termination_by structural exprs => exprs

def Stmt.bare : Stmt → Stmt
  | .letBind token name value => .letBind token.bare name.bare value.bare
  | .ret token value => .ret token.bare value.bare
  | .expr _ expr => .expr .eof expr.bare
  | .block block => .block block.bare
termination_by structural stmt => stmt

def bareStmts : List Stmt → List Stmt
  | [] => []
  | stmt :: stmts => stmt.bare :: bareStmts stmts
termination_by structural stmts => stmts

def Block.bare : Block → Block
  | .mk token statements => .mk token.bare (bareStmts statements)
termination_by structural block => block

end

/-- The program with its shape and the kinds of its tokens only. Programs that agree in this form
differ in nothing but texts, names and values, and in the tokens of expression statements. -/
def Program.bare (program : Program) : Program := ⟨bareStmts program.statements⟩

/-- The same position, filled with the kind of its token only. -/
def barePosition (position : Role × Token) : Role × Token := (position.1, position.2.bare)

mutual

theorem Expr.positions_bare : (expr : Expr) → expr.bare.positions = expr.positions.map barePosition
  | .name _ | .int _ _ | .bool _ _ => rfl
  | .unary _ operand | .suffix _ operand => by
      simp [Expr.bare, Expr.positions, barePosition, operand.positions_bare]
  | .binary _ left right => by
      simp [Expr.bare, Expr.positions, barePosition, left.positions_bare, right.positions_bare]
  | .cond _ test consequence none => by
      simp [Expr.bare, Expr.positions, barePosition, test.positions_bare,
        consequence.positions_bare]
  | .cond _ test consequence (some alternative) => by
      simp [Expr.bare, Expr.positions, barePosition, test.positions_bare,
        consequence.positions_bare, alternative.positions_bare]
  | .function _ params body => by
      simp [Expr.bare, Expr.positions, barePosition, Ident.bare, Function.comp_def,
        body.positions_bare]
  | .call _ callee args => by
      simp [Expr.bare, Expr.positions, barePosition, callee.positions_bare,
        positions_bareExprs args]

theorem positions_bareExprs : (exprs : List Expr) →
    positionsOfExprs (bareExprs exprs) = (positionsOfExprs exprs).map barePosition
  | [] => rfl
  | expr :: exprs => by
      simp [bareExprs, positionsOfExprs, expr.positions_bare, positions_bareExprs exprs]

theorem Stmt.positions_bare : (stmt : Stmt) → stmt.bare.positions = stmt.positions.map barePosition
  | .letBind _ _ value | .ret _ value | .expr _ value => by
      simp [Stmt.bare, Stmt.positions, barePosition, Ident.bare, value.positions_bare]
  | .block block => by simp [Stmt.bare, Stmt.positions, block.positions_bare]

theorem positions_bareStmts : (stmts : List Stmt) →
    positionsOfStmts (bareStmts stmts) = (positionsOfStmts stmts).map barePosition
  | [] => rfl
  | stmt :: stmts => by
      simp [bareStmts, positionsOfStmts, stmt.positions_bare, positions_bareStmts stmts]

theorem Block.positions_bare : (block : Block) →
    block.bare.positions = block.positions.map barePosition
  | .mk _ statements => by
      simp [Block.bare, Block.positions, barePosition, positions_bareStmts statements]

end

namespace Program

theorem mismatches_eq_positions (program : Program) :
    program.mismatches = (program.positions.filter fun position =>
      ¬position.1.Takes position.2.kind).map fun position => ⟨position.1, position.2.kind⟩ := by
  rw [mismatches_eq, Program.nodes, flatMap_roles_stmts]
  simp only [Role.mismatches, Role.mem_allowed_iff]
  rfl

theorem mismatches_bare (program : Program) : program.bare.mismatches = program.mismatches := by
  have positions : program.bare.positions = program.positions.map barePosition :=
    positions_bareStmts program.statements
  simp only [mismatches_eq_positions, positions, List.filter_map, List.map_map]
  rfl

/-- The check finds one mismatch for each position that is filled with a token that its role does
not take, in the order of the positions, and it finds nothing else. So it finds nothing exactly if
all positions are filled as they should be. Texts, names and values do not matter for it, and
neither do the tokens of expression statements. -/
theorem mismatches_exact (program : Program) :
    (program.mismatches = (program.positions.filter fun position =>
      ¬position.1.Takes position.2.kind).map fun position => ⟨position.1, position.2.kind⟩) ∧
    (program.mismatches = [] ↔
      ∀ position ∈ program.positions, position.1.Takes position.2.kind) ∧
    ∀ other : Program, other.bare = program.bare → other.mismatches = program.mismatches := by
  refine ⟨program.mismatches_eq_positions, ?_, ?_⟩
  · simp [mismatches_eq_positions]
  · intro other same
    rw [← other.mismatches_bare, same, mismatches_bare]

/-- A function bound by a `let`, with the tokens of the bound name and of the body exchanged, and a
unary plus. The other program has other texts and names, and another token for its last
statement. -/
theorem mismatches_exact_exchanged :
    let program (text : String) (first : Token) : Program :=
      ⟨[.letBind ⟨.kwLet, text⟩ (.ofToken ⟨.lbrace, text⟩) (.function ⟨.kwFn, text⟩
        [.ofToken ⟨.ident, text⟩, .ofToken ⟨.ident, text⟩] (.mk ⟨.ident, text⟩ [])),
        .expr first (.unary ⟨.plus, text⟩ (.name (.ofToken ⟨.int, text⟩)))]⟩
    (program "a" .eof).mismatches = [⟨.letName, .lbrace⟩, ⟨.block, .ident⟩, ⟨.unary, .plus⟩,
        ⟨.identifier, .int⟩] ∧
      (program "b" (.mark .plus)).bare = (program "a" .eof).bare ∧
      (program "b" (.mark .plus)).mismatches = (program "a" .eof).mismatches := by
  intro program
  rcases (program "a" .eof).mismatches_exact with ⟨exact, _, same⟩
  exact ⟨exact.trans (by decide), rfl, same _ rfl⟩

end Program

end Scriptlet
