import Mathlib.Data.Nat.Digits.Defs
import Scriptlet.Decimal
import Scriptlet.Token.Precedence
import Scriptlet.Tree.Basic

/-!
# The grammar

The language as a grammar on tokens, without a cursor and without a report. Each of its relations
says that the tokens of `input` in front of `rest` spell a tree, so the tokens that follow are at
hand where a rule depends on them. Two rules do. A block without a closing brace ends with the
input. And the expression of a statement that no `;` closes is as long as it can be: it is not
followed by a token that could continue it.

Expressions are stratified. A stratum of binary operators groups to the left over the next tighter
stratum; unary operators nest to the right over chains of suffixes and calls, which begin with an
atom. The number in each relation is the nesting of the derivation. A statement and an expression
that lies inside something count one level each, while the left operand of an operator, the operand
of a suffix and the callee of a call lie on the level of the whole.
-/

namespace Scriptlet

/-- The number that decimal digits denote, in terms of their places. -/
theorem Decimal.value_eq_ofDigits (digits : List Char) :
    value digits = Nat.ofDigits 10 (digits.reverse.map fun digit => digit.toNat - '0'.toNat) := by
  rw [Nat.ofDigits_eq_foldr, List.foldr_map, List.foldr_reverse, value]
  simp only [Nat.add_comm]
  rfl

/-- The kind of the first of some tokens, or that of the end mark behind the last one. -/
def firstKind (tokens : List Token) : Kind := (tokens.headD .eof).kind

@[simp]
theorem firstKind_nil : firstKind [] = .eof := rfl

@[simp]
theorem firstKind_cons (token : Token) (tokens : List Token) :
    firstKind (token :: tokens) = token.kind := rfl

theorem exists_cons_of_firstKind {tokens : List Token} {kind : Kind}
    (first : firstKind tokens = kind) (notEnd : kind ≠ .eof) :
    ∃ token rest, tokens = token :: rest ∧ token.kind = kind := by
  cases tokens with
  | nil => exact absurd first.symm notEnd
  | cons token rest => exact ⟨token, rest, rfl, first⟩

/-- The strata of expressions, from the loosest operators to chains of suffixes. -/
inductive Stratum where
  | equality
  | comparison
  | sum
  | product
  | unary
  | chain
  deriving DecidableEq, Repr

namespace Stratum

def operators : Stratum → List Kind
  | equality => [.eq, .ne]
  | comparison => [.lt, .le, .gt, .ge]
  | sum => [.plus, .minus]
  | product => [.star, .slash]
  | unary | chain => []

def next? : Stratum → Option Stratum
  | equality => some comparison
  | comparison => some sum
  | sum => some product
  | product => some unary
  | unary => some chain
  | chain => none

end Stratum

namespace Grammar

/-- Identifiers with commas between them, at least one. -/
inductive Identifiers : List Token → List Ident → List Token → Prop
  | one {token : Token} {rest : List Token} (isIdent : token.kind = .ident) :
      Identifiers (token :: rest) [.ofToken token] rest
  | more {token comma : Token} {input rest : List Token} {idents : List Ident}
      (isIdent : token.kind = .ident) (isComma : comma.kind = .comma)
      (others : Identifiers input idents rest) :
      Identifiers (token :: comma :: input) (.ofToken token :: idents) rest

/-- The parameters of a function and the parenthesis behind them. -/
inductive Parameters : List Token → List Ident → List Token → Prop
  | none {close : Token} {rest : List Token} (closes : close.kind = .rparen) :
      Parameters (close :: rest) [] rest
  | some {close : Token} {input rest : List Token} {idents : List Ident}
      (identifiers : Identifiers input idents (close :: rest)) (closes : close.kind = .rparen) :
      Parameters input idents rest

/-- The `;` that may stand behind a statement. -/
inductive Semicolon : List Token → List Token → Prop
  | present {token : Token} {rest : List Token} (isSemicolon : token.kind = .semicolon) :
      Semicolon (token :: rest) rest
  | absent {rest : List Token} : Semicolon rest rest

/-- The end of a statement behind its expression: a `;`, or a token that cannot continue the
expression. -/
inductive Ending : List Token → List Token → Prop
  | semicolon {token : Token} {rest : List Token} (isSemicolon : token.kind = .semicolon) :
      Ending (token :: rest) rest
  | greedy {rest : List Token} (loose : (firstKind rest).precedence = .lowest) : Ending rest rest

mutual

/-- Expressions of a stratum. -/
inductive Expression : Stratum → Nat → List Token → Expr → List Token → Prop
  | tighter {stratum next : Stratum} {nesting : Nat} {input rest : List Token} {expr : Expr}
      (isNext : stratum.next? = some next) (inner : Expression next nesting input expr rest) :
      Expression stratum nesting input expr rest
  | binary {stratum next : Stratum} {leftNesting rightNesting : Nat} {token : Token}
      {input middle rest : List Token} {left right : Expr}
      (isOperator : token.kind ∈ stratum.operators) (isNext : stratum.next? = some next)
      (leftOperand : Expression stratum leftNesting input left (token :: middle))
      (rightOperand : Expression next rightNesting middle right rest) :
      Expression stratum (max leftNesting (rightNesting + 1)) input (.binary token left right) rest
  | unary {nesting : Nat} {token : Token} {input rest : List Token} {expr : Expr}
      (isOperator : token.kind = .bang ∨ token.kind = .minus)
      (operand : Expression .unary nesting input expr rest) :
      Expression .unary (nesting + 1) (token :: input) (.unary token expr) rest
  | suffix {nesting : Nat} {token : Token} {input rest : List Token} {expr : Expr}
      (isOperator : token.kind ∈ [.plusPlus, .minusMinus, .question])
      (operand : Expression .chain nesting input expr (token :: rest)) :
      Expression .chain nesting input (.suffix token expr) rest
  | call {nesting argsNesting : Nat} {token : Token} {input middle rest : List Token} {expr : Expr}
      {args : List Expr} (opens : token.kind = .lparen)
      (callee : Expression .chain nesting input expr (token :: middle))
      (arguments : Arguments argsNesting middle args rest) :
      Expression .chain (max nesting (argsNesting + 1)) input (.call token expr args) rest
  | name {token : Token} {rest : List Token} (isIdent : token.kind = .ident) :
      Expression .chain 1 (token :: rest) (.name (.ofToken token)) rest
  | int {token : Token} {number : Nat} {rest : List Token} (isInt : token.kind = .int)
      (denotes : number = Nat.ofDigits 10 (token.literal.toList.reverse.map fun digit =>
        digit.toNat - '0'.toNat))
      (inRange : number < Nat.pow 2 63) :
      Expression .chain 1 (token :: rest) (.int token (Int64.ofNat number)) rest
  | true {token : Token} {rest : List Token} (isTrue : token.kind = .kwTrue) :
      Expression .chain 1 (token :: rest) (.bool token Bool.true) rest
  | false {token : Token} {rest : List Token} (isFalse : token.kind = .kwFalse) :
      Expression .chain 1 (token :: rest) (.bool token Bool.false) rest
  | group {nesting : Nat} {token close : Token} {input rest : List Token} {expr : Expr}
      (opens : token.kind = .lparen)
      (inner : Expression .equality nesting input expr (close :: rest))
      (closes : close.kind = .rparen) :
      Expression .chain (nesting + 1) (token :: input) expr rest
  | cond {testNesting nesting : Nat} {token lparen rparen : Token} {input middle rest : List Token}
      {test : Expr} {consequence : Scriptlet.Block} (isIf : token.kind = .kwIf)
      (opens : lparen.kind = .lparen)
      (condition : Expression .equality testNesting input test (rparen :: middle))
      (closes : rparen.kind = .rparen) (branch : Block nesting middle consequence rest) :
      Expression .chain (max testNesting nesting + 1) (token :: lparen :: input)
        (.cond token test consequence none) rest
  | condElse {testNesting nesting elseNesting : Nat} {token lparen rparen kwElse : Token}
      {input middle more rest : List Token} {test : Expr}
      {consequence alternative : Scriptlet.Block} (isIf : token.kind = .kwIf)
      (opens : lparen.kind = .lparen)
      (condition : Expression .equality testNesting input test (rparen :: middle))
      (closes : rparen.kind = .rparen)
      (branch : Block nesting middle consequence (kwElse :: more))
      (isElse : kwElse.kind = .kwElse) (elseBranch : Block elseNesting more alternative rest) :
      Expression .chain (max (max testNesting nesting) elseNesting + 1) (token :: lparen :: input)
        (.cond token test consequence (some alternative)) rest
  | function {nesting : Nat} {token lparen : Token} {input middle rest : List Token}
      {params : List Ident} {body : Scriptlet.Block} (isFn : token.kind = .kwFn)
      (opens : lparen.kind = .lparen) (parameters : Parameters input params middle)
      (block : Block nesting middle body rest) :
      Expression .chain (nesting + 1) (token :: lparen :: input) (.function token params body) rest

/-- Expressions with commas between them, at least one. -/
inductive Expressions : Nat → List Token → List Expr → List Token → Prop
  | one {nesting : Nat} {input rest : List Token} {expr : Expr}
      (expression : Expression .equality nesting input expr rest) :
      Expressions nesting input [expr] rest
  | more {nesting others : Nat} {comma : Token} {input middle rest : List Token} {expr : Expr}
      {exprs : List Expr} (expression : Expression .equality nesting input expr (comma :: middle))
      (isComma : comma.kind = .comma) (expressions : Expressions others middle exprs rest) :
      Expressions (max nesting others) input (expr :: exprs) rest

/-- The arguments of a call and the parenthesis behind them. -/
inductive Arguments : Nat → List Token → List Expr → List Token → Prop
  | none {close : Token} {rest : List Token} (closes : close.kind = .rparen) :
      Arguments 0 (close :: rest) [] rest
  | some {nesting : Nat} {close : Token} {input rest : List Token} {exprs : List Expr}
      (expressions : Expressions nesting input exprs (close :: rest))
      (closes : close.kind = .rparen) : Arguments nesting input exprs rest

inductive Statement : Nat → List Token → Stmt → List Token → Prop
  | letBind {nesting : Nat} {token name assign : Token} {input middle rest : List Token}
      {expr : Expr} (isLet : token.kind = .kwLet) (isIdent : name.kind = .ident)
      (isAssign : assign.kind = .assign)
      (value : Expression .equality nesting input expr middle) (ending : Ending middle rest) :
      Statement (nesting + 1) (token :: name :: assign :: input)
        (.letBind token (.ofToken name) expr) rest
  | ret {nesting : Nat} {token : Token} {input middle rest : List Token} {expr : Expr}
      (isReturn : token.kind = .kwReturn) (value : Expression .equality nesting input expr middle)
      (ending : Ending middle rest) :
      Statement (nesting + 1) (token :: input) (.ret token expr) rest
  | expr {nesting : Nat} {token : Token} {input middle rest : List Token} {expr : Expr}
      (expression : Expression .equality nesting (token :: input) expr middle)
      (ending : Ending middle rest) :
      Statement (nesting + 1) (token :: input) (.expr token expr) rest
  | block {nesting : Nat} {input middle rest : List Token} {block : Scriptlet.Block}
      (inner : Block nesting input block middle) (semicolon : Semicolon middle rest) :
      Statement (nesting + 1) input (.block block) rest

/-- Statements one after the other. -/
inductive Statements : Nat → List Token → List Stmt → List Token → Prop
  | nil {rest : List Token} : Statements 0 rest [] rest
  | cons {nesting others : Nat} {input middle rest : List Token} {stmt : Stmt} {stmts : List Stmt}
      (statement : Statement nesting input stmt middle)
      (statements : Statements others middle stmts rest) :
      Statements (max nesting others) input (stmt :: stmts) rest

/-- Statements between braces. The closing one may be missing at the end of the input. -/
inductive Block : Nat → List Token → Scriptlet.Block → List Token → Prop
  | closed {nesting : Nat} {token close : Token} {input rest : List Token} {stmts : List Stmt}
      (opens : token.kind = .lbrace) (statements : Statements nesting input stmts (close :: rest))
      (closes : close.kind = .rbrace) : Block nesting (token :: input) (.mk token stmts) rest
  | unclosed {nesting : Nat} {token : Token} {input : List Token} {stmts : List Stmt}
      (opens : token.kind = .lbrace) (statements : Statements nesting input stmts []) :
      Block nesting (token :: input) (.mk token stmts) []

end

theorem Expression.ofValue {token : Token} {rest : List Token} (isInt : token.kind = .int)
    (inRange : Decimal.value token.literal.toList < Nat.pow 2 63) :
    Expression .chain 1 (token :: rest)
      (.int token (Int64.ofNat (Decimal.value token.literal.toList))) rest :=
  .int isInt (Decimal.value_eq_ofDigits _) inRange

/-- The kinds of token an expression can begin with. -/
def starters : List Kind :=
  [.ident, .int, .kwTrue, .kwFalse, .bang, .minus, .lparen, .kwIf, .kwFn]

theorem Expression.firstKind_mem {stratum : Stratum} {nesting : Nat} {input rest : List Token}
    {expr : Expr} : Expression stratum nesting input expr rest → firstKind input ∈ starters
  | .tighter _ inner => inner.firstKind_mem
  | .binary _ _ leftOperand _ => leftOperand.firstKind_mem
  | .suffix _ operand => operand.firstKind_mem
  | .call _ callee _ => callee.firstKind_mem
  | .unary (.inl isBang) _ => by simp [isBang, starters]
  | .unary (.inr isMinus) _ => by simp [isMinus, starters]
  | .name isKind | .int isKind _ _ | .true isKind | .false isKind | .group isKind _ _
  | .cond isKind _ _ _ _ | .condElse isKind _ _ _ _ _ _ | .function isKind _ _ _ => by
      simp [isKind, starters]

/-- The tokens spell the program, by a derivation of a certain nesting. -/
def Derives (nesting : Nat) (tokens : List Token) (program : Program) : Prop :=
  Statements nesting tokens program.statements []

end Grammar

end Scriptlet
