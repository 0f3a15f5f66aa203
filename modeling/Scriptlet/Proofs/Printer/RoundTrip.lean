import Scriptlet.Proofs.Parser.Recognition
import Scriptlet.Proofs.Printer.Tokens
import Scriptlet.Session

/-!
# Reading what was printed

The grammar derives a program from the tokens of its printed form, and hence parsing undoes printing.
In the printed form every operator stands in parentheses of its own, so an operand is always a chain
and fits every stratum; what remains to be checked are the ends of statements.

One thing is lost. An expression statement keeps the first token of its expression, which after
printing may be a parenthesis that was not there before. Trees are therefore compared without these
tokens.
-/

namespace Scriptlet

mutual

/-- The expression with the token of each expression statement inside chosen by `first`. -/
def Expr.withFirstTokens (first : Expr → Token) : Expr → Expr
  | .name ident => .name ident
  | .int token value => .int token value
  | .bool token value => .bool token value
  | .unary token operand => .unary token (operand.withFirstTokens first)
  | .binary token left right =>
      .binary token (left.withFirstTokens first) (right.withFirstTokens first)
  | .suffix token operand => .suffix token (operand.withFirstTokens first)
  | .cond token test consequence none =>
      .cond token (test.withFirstTokens first) (consequence.withFirstTokens first) none
  | .cond token test consequence (some alternative) =>
      .cond token (test.withFirstTokens first) (consequence.withFirstTokens first)
        (some (alternative.withFirstTokens first))
  | .function token params body => .function token params (body.withFirstTokens first)
  | .call token callee args =>
      .call token (callee.withFirstTokens first) (exprsWithFirstTokens first args)
termination_by structural expr => expr

def exprsWithFirstTokens (first : Expr → Token) : List Expr → List Expr
  | [] => []
  | expr :: exprs => expr.withFirstTokens first :: exprsWithFirstTokens first exprs
termination_by structural exprs => exprs

def Stmt.withFirstTokens (first : Expr → Token) : Stmt → Stmt
  | .letBind token name value => .letBind token name (value.withFirstTokens first)
  | .ret token value => .ret token (value.withFirstTokens first)
  | .expr _ expr => .expr (first expr) (expr.withFirstTokens first)
  | .block block => .block (block.withFirstTokens first)
termination_by structural stmt => stmt

def stmtsWithFirstTokens (first : Expr → Token) : List Stmt → List Stmt
  | [] => []
  | stmt :: stmts => stmt.withFirstTokens first :: stmtsWithFirstTokens first stmts
termination_by structural stmts => stmts

def Block.withFirstTokens (first : Expr → Token) : Block → Block
  | .mk token statements => .mk token (stmtsWithFirstTokens first statements)
termination_by structural block => block

end

def Program.withFirstTokens (first : Expr → Token) (program : Program) : Program :=
  ⟨stmtsWithFirstTokens first program.statements⟩

/-- The program with the end mark for the token of each expression statement, at any depth. Programs
that agree in this form differ in nothing but these tokens. -/
def Program.withoutFirstTokens (program : Program) : Program :=
  program.withFirstTokens fun _ => .eof

mutual

/-- The nesting of a printed expression, parentheses included. -/
def Expr.printedNesting : Expr → Nat
  | .name _ | .int _ _ | .bool _ _ => 1
  | .unary _ operand => operand.printedNesting + 2
  | .binary _ left right => max left.printedNesting (right.printedNesting + 1) + 1
  | .suffix token operand =>
      if token.kind = .question ∧ operand.isWord then
        operand.printedNesting + 2
      else
        operand.printedNesting + 1
  | .cond _ test consequence none => max test.printedNesting consequence.printedNesting + 1
  | .cond _ test consequence (some alternative) =>
      max (max test.printedNesting consequence.printedNesting) alternative.printedNesting + 1
  | .function _ _ body => body.printedNesting + 1
  | .call _ callee args => max callee.printedNesting (printedNestingOfExprs args + 1)
termination_by structural expr => expr

def printedNestingOfExprs : List Expr → Nat
  | [] => 0
  | expr :: exprs => max expr.printedNesting (printedNestingOfExprs exprs)
termination_by structural exprs => exprs

def Stmt.printedNesting : Stmt → Nat
  | .letBind _ _ value | .ret _ value | .expr _ value => value.printedNesting + 1
  | .block block => block.printedNesting + 1
termination_by structural stmt => stmt

def printedNestingOfStmts : List Stmt → Nat
  | [] => 0
  | stmt :: stmts => max stmt.printedNesting (printedNestingOfStmts stmts)
termination_by structural stmts => stmts

def Block.printedNesting : Block → Nat
  | .mk _ statements => printedNestingOfStmts statements
termination_by structural block => block

end

def Program.printedNesting (program : Program) : Nat :=
  printedNestingOfStmts program.statements

section WithFirstTokens

variable (first : Expr → Token) (other : Token)

mutual

theorem Expr.withFirstTokens_idem : (expr : Expr) →
    (expr.withFirstTokens first).withFirstTokens (fun _ => other) =
      expr.withFirstTokens fun _ => other
  | .name _ | .int _ _ | .bool _ _ => rfl
  | .unary _ operand | .suffix _ operand => by
      simp [Expr.withFirstTokens, operand.withFirstTokens_idem]
  | .binary _ left right => by
      simp [Expr.withFirstTokens, left.withFirstTokens_idem, right.withFirstTokens_idem]
  | .cond _ test consequence none => by
      simp [Expr.withFirstTokens, test.withFirstTokens_idem, consequence.withFirstTokens_idem]
  | .cond _ test consequence (some alternative) => by
      simp [Expr.withFirstTokens, test.withFirstTokens_idem, consequence.withFirstTokens_idem,
        alternative.withFirstTokens_idem]
  | .function _ _ body => by simp [Expr.withFirstTokens, body.withFirstTokens_idem]
  | .call _ callee args => by
      simp [Expr.withFirstTokens, callee.withFirstTokens_idem, exprsWithFirstTokens_idem args]

theorem exprsWithFirstTokens_idem : (exprs : List Expr) →
    exprsWithFirstTokens (fun _ => other) (exprsWithFirstTokens first exprs) =
      exprsWithFirstTokens (fun _ => other) exprs
  | [] => rfl
  | expr :: exprs => by
      simp [exprsWithFirstTokens, expr.withFirstTokens_idem, exprsWithFirstTokens_idem exprs]

theorem Stmt.withFirstTokens_idem : (stmt : Stmt) →
    (stmt.withFirstTokens first).withFirstTokens (fun _ => other) =
      stmt.withFirstTokens fun _ => other
  | .letBind _ _ value | .ret _ value | .expr _ value => by
      simp [Stmt.withFirstTokens, value.withFirstTokens_idem]
  | .block block => by simp [Stmt.withFirstTokens, block.withFirstTokens_idem]

theorem stmtsWithFirstTokens_idem : (stmts : List Stmt) →
    stmtsWithFirstTokens (fun _ => other) (stmtsWithFirstTokens first stmts) =
      stmtsWithFirstTokens (fun _ => other) stmts
  | [] => rfl
  | stmt :: stmts => by
      simp [stmtsWithFirstTokens, stmt.withFirstTokens_idem, stmtsWithFirstTokens_idem stmts]

theorem Block.withFirstTokens_idem : (block : Block) →
    (block.withFirstTokens first).withFirstTokens (fun _ => other) =
      block.withFirstTokens fun _ => other
  | .mk _ statements => by
      simp [Block.withFirstTokens, stmtsWithFirstTokens_idem statements]

end

theorem Program.withoutFirstTokens_withFirstTokens (program : Program) :
    (program.withFirstTokens first).withoutFirstTokens = program.withoutFirstTokens := by
  simp [Program.withoutFirstTokens, Program.withFirstTokens, stmtsWithFirstTokens_idem]

end WithFirstTokens

def Expr.printedStart (expr : Expr) : Token := expr.printedTokens.headD .eof

theorem Expr.printedTokens_ne_nil (expr : Expr) : expr.printedTokens ≠ [] := by
  match expr with
  | .name _ | .int _ _ | .bool _ _ | .unary _ _ | .binary _ _ _ | .function _ _ _
  | .cond _ _ _ none | .cond _ _ _ (some _) => simp [Expr.printedTokens]
  | .suffix token operand =>
      rw [Expr.printedTokens]
      split <;> simp
  | .call token callee args => simp [Expr.printedTokens]

theorem Expr.printedTokens_eq_cons (expr : Expr) :
    expr.printedTokens = expr.printedStart :: expr.printedTokens.tail := by
  rw [Expr.printedStart]
  cases tokens_eq : expr.printedTokens with
  | nil => exact absurd tokens_eq expr.printedTokens_ne_nil
  | cons token tokens => rfl

/-- What a statement prints as is derived as this statement in front of any tokens, which must not
continue an expression. -/
def Stmt.Reread (stmt : Stmt) : Prop :=
  ∀ {rest : List Token},
    (stmt.isExpr = true → (firstKind rest).precedence = .lowest) →
      Grammar.Statement stmt.printedNesting (stmt.printedTokens ++ rest)
        (stmt.withFirstTokens Expr.printedStart) rest

theorem Ident.WellSpelled.eq_ofToken {ident : Ident} (spelled : ident.WellSpelled) :
    ident = .ofToken ident.token := by
  cases ident
  simpa [Ident.ofToken] using spelled.2.2

/-- Only a parenthesis at the beginning of an expression could continue another expression in front
of it. -/
theorem Expr.WellSpelled.loose_start {expr : Expr} : expr.WellSpelled →
    expr.print.toList.head? ≠ some '(' → ∀ rest : List Token,
      (firstKind (expr.printedTokens ++ rest)).precedence = .lowest
  | .name ⟨_, isIdent, _⟩, _, rest => by
      rw [Expr.printedTokens, List.singleton_append, firstKind_cons, isIdent]
      rfl
  | .int _ isInt _, _, rest => by
      rw [Expr.printedTokens, List.singleton_append, firstKind_cons, isInt]
      rfl
  | .bool value, _, rest => by cases value <;> rfl
  | .unary _ _, noCall, rest => by simp [Expr.print] at noCall
  | .binary _ _ _, noCall, rest => by simp [Expr.print] at noCall
  | .suffix _ _, noCall, rest => by
      rw [Expr.print] at noCall
      split at noCall <;> simp at noCall
  | @Expr.WellSpelled.cond _ _ alternative _ _ _, _, rest => by cases alternative <;> rfl
  | .function _ _, _, rest => rfl
  | @Expr.WellSpelled.call callee args called _, noCall, rest => by
      have calleeNoCall : callee.print.toList.head? ≠ some '(' := by
        have head := called.head_print
        cases print_eq : callee.print.toList with
        | nil => simp [print_eq] at head
        | cons first others => simpa [Expr.print, print_eq] using noCall
      rw [Expr.printedTokens, List.append_assoc]
      exact called.loose_start calleeNoCall _

theorem Stmt.WellSpelled.loose_start {stmt : Stmt} (spelled : stmt.WellSpelled)
    (noCall : stmt.print.toList.head? ≠ some '(') (rest : List Token) :
    (firstKind (stmt.printedTokens ++ rest)).precedence = .lowest := by
  cases spelled with
  | letBind => rfl
  | ret => rfl
  | expr inner => exact inner.loose_start noCall rest
  | block inner =>
      cases inner
      rfl

namespace Grammar

theorem identifiers_printed {param : Ident} {params : List Ident}
    (spelled : ∀ ident ∈ param :: params, ident.WellSpelled) (rest : List Token) :
    Identifiers (commaBetween ((param :: params).map ([·.token])) ++ rest) (param :: params) rest := by
  induction params generalizing param with
  | nil =>
      have only := spelled param (by simp)
      rw [only.eq_ofToken]
      exact .one only.2.1
  | cons next params ih =>
      have first := spelled param (by simp)
      have others := ih fun ident ident_mem => spelled ident (List.mem_cons_of_mem _ ident_mem)
      have all := @Identifiers.more _ (.mark .comma) _ _ _ first.2.1 rfl others
      rw [← first.eq_ofToken] at all
      simpa [commaBetween] using all

theorem parameters_printed {params : List Ident} (spelled : ∀ ident ∈ params, ident.WellSpelled)
    (rest : List Token) :
    Parameters (commaBetween (params.map ([·.token])) ++ .mark .rparen :: rest) params rest := by
  cases params with
  | nil => exact .none rfl
  | cons param params => exact .some (identifiers_printed spelled _) rfl

theorem expressions_printed {arg : Expr} {args : List Expr}
    (derived : ∀ expr ∈ arg :: args, ∀ rest, Expression .equality expr.printedNesting
      (expr.printedTokens ++ rest) (expr.withFirstTokens Expr.printedStart) rest)
    (rest : List Token) :
    Expressions (printedNestingOfExprs (arg :: args))
      (commaBetween (printedTokensOfExprs (arg :: args)) ++ rest)
      (exprsWithFirstTokens Expr.printedStart (arg :: args)) rest := by
  induction args generalizing arg with
  | nil =>
      have only := derived arg (by simp) rest
      simpa [printedNestingOfExprs, printedTokensOfExprs, commaBetween, exprsWithFirstTokens]
        using Expressions.one only
  | cons next args ih =>
      have first := derived arg (by simp)
      have others := ih fun expr expr_mem => derived expr (List.mem_cons_of_mem _ expr_mem)
      have all := Expressions.more (first (.mark .comma :: _)) rfl others
      simpa [printedNestingOfExprs, printedTokensOfExprs, commaBetween, exprsWithFirstTokens]
        using all

theorem arguments_printed {args : List Expr}
    (derived : ∀ expr ∈ args, ∀ rest, Expression .equality expr.printedNesting
      (expr.printedTokens ++ rest) (expr.withFirstTokens Expr.printedStart) rest)
    (rest : List Token) :
    Arguments (printedNestingOfExprs args)
      (commaBetween (printedTokensOfExprs args) ++ .mark .rparen :: rest)
      (exprsWithFirstTokens Expr.printedStart args) rest := by
  cases args with
  | nil => exact .none rfl
  | cons arg args => exact .some (expressions_printed derived _) rfl

theorem statements_printed {stmts : List Stmt}
    (spelled : ∀ stmt ∈ stmts, stmt.WellSpelled) (reread : ∀ stmt ∈ stmts, stmt.Reread)
    (apart : KeptApart stmts) {rest : List Token}
    (loose : (firstKind rest).precedence = .lowest) :
    Statements (printedNestingOfStmts stmts) (printedTokensOfStmts stmts ++ rest)
      (stmtsWithFirstTokens Expr.printedStart stmts) rest := by
  induction apart with
  | nil => exact .nil
  | singleton stmt =>
      have only : stmt.Reread := reread stmt (by simp)
      simpa [printedNestingOfStmts, printedTokensOfStmts, stmtsWithFirstTokens]
        using Statements.cons (only fun _ => loose) .nil
  | @cons_cons stmt next stmts follows apart ih =>
      have first : stmt.Reread := reread stmt (by simp)
      have behind := ih (fun stmt stmt_mem => spelled stmt (List.mem_cons_of_mem _ stmt_mem))
        fun stmt stmt_mem => reread stmt (List.mem_cons_of_mem _ stmt_mem)
      rw [printedTokensOfStmts, List.append_assoc]
      refine .cons (first fun isExpr => ?_) behind
      -- no parenthesis follows an expression, and nothing else could continue it
      have noCall : next.print.toList.head? ≠ some '(' := by
        intro isCall
        have notContinued := follows '(' isCall
        cases stmt with
        | expr => simp [Stmt.continuedBy] at notContinued
        | letBind | ret | block => simp [Stmt.isExpr] at isExpr
      rw [printedTokensOfStmts, List.append_assoc]
      exact (spelled next (by simp)).loose_start noCall _

end Grammar

namespace Grammar

/-- A chain fits every stratum. -/
theorem Expression.ofChain {stratum : Stratum} {nesting : Nat} {input rest : List Token}
    {expr : Expr} (chain : Expression .chain nesting input expr rest) :
    Expression stratum nesting input expr rest := by
  refine chain.loosen ?_
  cases stratum <;> decide

/-- Parentheses make a chain of anything. -/
theorem Expression.grouped {stratum : Stratum} {nesting : Nat} {input rest : List Token}
    {expr : Expr} (inner : Expression stratum nesting input expr (.mark .rparen :: rest)) :
    Expression .chain (nesting + 1) (.mark .lparen :: input) expr rest := by
  have loosest : Expression .equality nesting input expr (.mark .rparen :: rest) := by
    refine inner.loosen ?_
    cases stratum <;> decide
  exact .group rfl loosest rfl

theorem exists_stratum_of_allowed {kind : Kind} (allowed : kind ∈ Role.binary.allowed) :
    ∃ stratum next : Stratum, kind ∈ stratum.operators ∧ stratum.next? = some next := by
  rcases Kind.exists_stratum_of_continuation? (Kind.continuation?_of_allowed allowed) with
    ⟨stratum, isOperator, _, isNext⟩
  exact ⟨stratum, _, isOperator, isNext⟩

end Grammar

open Grammar in
mutual

theorem Expr.WellSpelled.derived {expr : Expr} : expr.WellSpelled → AllBlocks KeptApart expr.nodes →
    ∀ rest : List Token, Expression .chain expr.printedNesting (expr.printedTokens ++ rest)
      (expr.withFirstTokens Expr.printedStart) rest
  | .name spelled, _, rest => by
      rw [spelled.eq_ofToken]
      exact .name spelled.2.1
  | .int _ isInt inRange, _, rest => .ofValue isInt inRange
  | .bool true, _, rest => .true rfl
  | .bool false, _, rest => .false rfl
  | @Expr.WellSpelled.unary kind operand allowed inner, apart, rest => by
      have isOperator : kind = .bang ∨ kind = .minus := by
        simpa [Role.allowed, or_comm] using allowed
      have derived := inner.derived (by simpa [Expr.nodes] using apart) (.mark .rparen :: rest)
      have applied := @Expression.unary _ (.mark kind) _ _ _ isOperator derived.ofChain
      simpa [Expr.printedNesting, Expr.printedTokens, Expr.withFirstTokens] using applied.grouped
  | @Expr.WellSpelled.binary kind left right allowed leftOperand rightOperand, apart, rest => by
      rcases exists_stratum_of_allowed allowed with ⟨stratum, next, isOperator, isNext⟩
      simp only [Expr.nodes, allBlocks_expr, allBlocks_append] at apart
      have derivedRight := rightOperand.derived apart.2 (.mark .rparen :: rest)
      have derivedLeft := leftOperand.derived apart.1
        (.mark kind :: (right.printedTokens ++ .mark .rparen :: rest))
      have applied := Expression.binary isOperator isNext derivedLeft.ofChain derivedRight.ofChain
      simpa [Expr.printedNesting, Expr.printedTokens, Expr.withFirstTokens] using applied.grouped
  | @Expr.WellSpelled.suffix kind operand allowed inner, apart, rest => by
      have derived := inner.derived (by simpa [Expr.nodes] using apart)
      by_cases joined : kind = .question ∧ operand.isWord = true
      · have grouped := (derived (.mark .rparen :: .mark kind :: .mark .rparen :: rest)).grouped
        have applied := Expression.suffix allowed grouped
        simpa [Expr.printedNesting, Expr.printedTokens, Expr.withFirstTokens, Token.mark, joined]
          using applied.grouped
      · have applied := Expression.suffix allowed (derived (.mark kind :: .mark .rparen :: rest))
        simpa [Expr.printedNesting, Expr.printedTokens, Expr.withFirstTokens, Token.mark, joined]
          using applied.grouped
  | @Expr.WellSpelled.cond _ consequence none condition branch _, apart, rest => by
      simp only [Expr.nodes, allBlocks_expr, allBlocks_append] at apart
      have derivedBranch := branch.derived apart.2 rest
      have derivedTest := condition.derived apart.1
        (.mark .rparen :: (consequence.printedTokens ++ rest))
      have applied := @Expression.cond _ _ (.word "if") (.mark .lparen) _ _ _ _ _ _ rfl rfl
        derivedTest.ofChain rfl derivedBranch
      simpa [Expr.printedNesting, Expr.printedTokens, Expr.withFirstTokens] using applied
  | @Expr.WellSpelled.cond _ consequence (some alternative) condition branch elseBranch, apart,
      rest => by
      simp only [Expr.nodes, allBlocks_expr, allBlocks_append] at apart
      have derivedElse := (elseBranch alternative rfl).derived apart.2 rest
      have derivedBranch := branch.derived apart.1.2
        (.word "else" :: (alternative.printedTokens ++ rest))
      have derivedTest := condition.derived apart.1.1
        (.mark .rparen :: (consequence.printedTokens ++
          .word "else" :: (alternative.printedTokens ++ rest)))
      have applied := @Expression.condElse _ _ _ (.word "if") (.mark .lparen) _ _ _ _ _ _ _ _ _ rfl
        rfl derivedTest.ofChain rfl derivedBranch rfl derivedElse
      simpa [Expr.printedNesting, Expr.printedTokens, Expr.withFirstTokens] using applied
  | @Expr.WellSpelled.function params body parameters block, apart, rest => by
      have derivedBody := block.derived (by simpa [Expr.nodes] using apart) rest
      have derivedParams := parameters_printed parameters (body.printedTokens ++ rest)
      have applied := @Expression.function _ (.word "fn") (.mark .lparen) _ _ _ _ _ rfl rfl
        derivedParams derivedBody
      simpa [Expr.printedNesting, Expr.printedTokens, Expr.withFirstTokens] using applied
  | @Expr.WellSpelled.call callee args called arguments, apart, rest => by
      simp only [Expr.nodes, allBlocks_expr, allBlocks_append,
        allBlocks_nodesOfExprs] at apart
      have derivedArgs := arguments_printed
        (fun arg arg_mem rest =>
          ((arguments arg arg_mem).derived (apart.2 arg arg_mem) rest).ofChain) rest
      have derivedCallee := called.derived apart.1
        (.mark .lparen :: (commaBetween (printedTokensOfExprs args) ++ .mark .rparen :: rest))
      have applied := Expression.call rfl derivedCallee derivedArgs
      simpa [Expr.printedNesting, Expr.printedTokens, Expr.withFirstTokens] using applied

theorem Stmt.WellSpelled.reread {stmt : Stmt} : stmt.WellSpelled → AllBlocks KeptApart stmt.nodes →
    stmt.Reread
  | @Stmt.WellSpelled.letBind name _ spelled value, apart, rest, _ => by
      have derived := value.derived (by simpa [Stmt.nodes] using apart)
        (.mark .semicolon :: rest)
      have applied := @Statement.letBind _ (.word "let") name.token (.mark .assign) _ _ _ _ rfl
        spelled.2.1 rfl derived.ofChain (.semicolon rfl)
      rw [← spelled.eq_ofToken] at applied
      simpa [Stmt.printedNesting, Stmt.printedTokens, Stmt.withFirstTokens] using applied
  | .ret value, apart, rest, _ => by
      have derived := value.derived (by simpa [Stmt.nodes] using apart)
        (.mark .semicolon :: rest)
      have applied := @Statement.ret _ (.word "return") _ _ _ _ rfl derived.ofChain (.semicolon rfl)
      simpa [Stmt.printedNesting, Stmt.printedTokens, Stmt.withFirstTokens] using applied
  | @Stmt.WellSpelled.expr token expr inner, apart, rest, follows => by
      have derived := inner.derived (by simpa [Stmt.nodes] using apart) rest
      simp only [Stmt.printedNesting, Stmt.printedTokens, Stmt.withFirstTokens]
      rw [expr.printedTokens_eq_cons] at derived ⊢
      exact .expr derived.ofChain (.greedy (follows rfl))
  | .block inner, apart, rest, _ => by
      have derived := inner.derived (by simpa [Stmt.nodes] using apart) rest
      exact .block derived .absent

theorem Block.WellSpelled.derived {block : Block} : block.WellSpelled →
    AllBlocks KeptApart block.nodes → ∀ rest : List Token, Grammar.Block block.printedNesting
      (block.printedTokens ++ rest) (block.withFirstTokens Expr.printedStart) rest
  | .mk statements, apart, rest => by
      simp only [Block.nodes, allBlocks_block, allBlocks_nodesOfStmts] at apart
      have derived := @statements_printed _ statements
        (fun stmt stmt_mem => (statements stmt stmt_mem).reread (apart.2 stmt stmt_mem))
        apart.1 (.mark .rbrace :: rest) rfl
      have closed := @Grammar.Block.closed _ (.mark .lbrace) _ _ _ _ rfl derived rfl
      simpa [Block.printedNesting, Block.printedTokens, Block.withFirstTokens] using closed

end

namespace Program

theorem wellSpelled_of_read {source : String} {program : Program}
    (read : Program.read source = (program, .empty)) :
    ∀ stmt ∈ program.statements, stmt.WellSpelled := by
  rcases derives_of_read read with ⟨_, _, derives⟩
  exact (Grammar.Statements.wellSpelled derives (spelled_tokenize source)).1

/-- The tokens of a printed program derive it again, with the nesting of the printed form. -/
theorem derives_print_of_keptApart {program : Program}
    (spelled : ∀ stmt ∈ program.statements, stmt.WellSpelled)
    (apart : KeptApart program.statements) (blocks : AllBlocks KeptApart program.nodes) :
    Grammar.Derives program.printedNesting (tokenize program.print)
      (program.withFirstTokens Expr.printedStart) := by
  rw [tokenize_print spelled apart blocks]
  rw [Program.nodes, allBlocks_nodesOfStmts] at blocks
  have derived := @Grammar.statements_printed _ spelled
    (fun stmt stmt_mem => (spelled stmt stmt_mem).reread (blocks stmt stmt_mem)) apart [] rfl
  simpa [Grammar.Derives, Program.withFirstTokens, Program.printedNesting] using derived

theorem derives_print {source : String} {program : Program}
    (read : Program.read source = (program, .empty)) (separated : Separated program.statements)
    (blocks : SeparatedBlocks program.nodes) :
    Grammar.Derives program.printedNesting (tokenize program.print)
      (program.withFirstTokens Expr.printedStart) := by
  refine derives_print_of_keptApart (wellSpelled_of_read read) separated.keptApart ?_
  intro block block_mem
  exact (blocks block block_mem).keptApart

/-- Parsing undoes printing. If in a program, and in all its blocks, an expression is the last
statement or stands in front of a block, then the printed program derives a program with the nesting
of the printed form, and if this is within the limit it is parsed as this program, which is the
printed one but for the tokens of expression statements. -/
theorem parse_print {source : String} {program : Program}
    (parsed : Program.parse source = .ok program)
    (separated : Separated program.statements ∧
      ∀ block ∈ program.blocks true, Separated block.statements)
    (shallow : program.printedNesting ≤ nestingLimit) :
    ∃ again, Grammar.Derives program.printedNesting (tokenize program.print) again ∧
      Program.parse program.print = .ok again ∧
        again.withoutFirstTokens = program.withoutFirstTokens := by
  have blocks : SeparatedBlocks program.nodes := by
    intro block block_mem
    exact separated.2 block (mem_blocks_iff.2 block_mem)
  have derives := derives_print (parse_eq_ok_iff.1 parsed) separated.1 blocks
  refine ⟨_, derives, parse_eq_ok_iff.2 (read_of_derives shallow derives), ?_⟩
  exact withoutFirstTokens_withFirstTokens _ program

/-- A program with all forms of expressions and statements, and its printed form. -/
theorem parse_print_called_branches :
    let source := "let a! = -5; if ((a!)? < 3 * 2) \x7b fn(x, y) \x7b return x++; \x7b\x7d 7 \x7d \x7d " ++
      "else \x7b true ? \x7b 0 \x7d \x7d(1, !false)"
    ∃ program again, Program.parse source = .ok program ∧
      (Separated program.statements ∧
        ∀ block ∈ program.blocks true, Separated block.statements) ∧
      program.printedNesting = 7 ∧
      program.print = "let a! = (-5);if ((((a!)?) < (3 * 2)))\x7bfn(x, y)\x7breturn (x++);" ++
        "\x7b\x7d7\x7d\x7delse\x7b((true)?)\x7b0\x7d\x7d(1, (!false))" ∧
      Program.parse program.print = .ok again ∧
        again.withoutFirstTokens = program.withoutFirstTokens := by
  intro source
  have evaluated : (Program.read source).2.isEmpty = true ∧
      (Separated (Program.read source).1.statements ∧
        ∀ block ∈ (Program.read source).1.blocks true, Separated block.statements) ∧
      (Program.read source).1.printedNesting = 7 ∧
      (Program.read source).1.print =
        "let a! = (-5);if ((((a!)?) < (3 * 2)))\x7bfn(x, y)\x7breturn (x++);" ++
          "\x7b\x7d7\x7d\x7delse\x7b((true)?)\x7b0\x7d\x7d(1, (!false))" := by
    decide +kernel
  rcases evaluated with ⟨isEmpty, separated, nesting, printed⟩
  have parsed : Program.parse source = .ok (Program.read source).1 :=
    parse_eq_ok_iff.2 (Prod.ext rfl (Report.isEmpty_iff.1 isEmpty))
  have shallow : (Program.read source).1.printedNesting ≤ nestingLimit := by
    rw [nesting]
    decide
  rcases parse_print parsed separated shallow with ⟨again, _, reparsed, same⟩
  exact ⟨_, again, parsed, separated, nesting, printed, reparsed, same⟩

end Program

end Scriptlet
