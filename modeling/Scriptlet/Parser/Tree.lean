import Scriptlet.Decimal
import Scriptlet.Parser.Basic
import Scriptlet.Token.Precedence
import Scriptlet.Tree.Basic

/-!
# Reading trees

Trees are read from tokens by operator precedence. A parser starts with the cursor on the first
token of what it reads and ends with the cursor on the last one, so that the next token shows how to
go on.

Expressions and statements lie inside each other, at most `nestingLimit` deep. `Level.inside room`
is the pair of parsers for what lies inside something, with `room` levels left below it; without
room they report that and skip the rest of the statement. An operand to the left of an operator lies
on the same level as the operator, so chains of operators may have any length.

A statement that cannot be read is reported and left out, and reading goes on behind it. The reports
tell whether the tree is all of the source.
-/

namespace Scriptlet

/-- How deep expressions and statements may lie inside each other. -/
def nestingLimit : Nat := 256

/-- The parsers for the expressions and the statements inside something. -/
structure Level where
  expression : Precedence → OptionT Parser Expr
  statement : OptionT Parser Stmt

namespace Parser

/-- The identifier under the cursor. -/
def identifier : Parser Ident := do
  return .ofToken (← current)

/-- The integer that a token denotes, or a report and zero if it is out of range. -/
def integer (token : Token) : Parser Expr := do
  match Decimal.int64? token.literal with
  | some value => return .int token value
  | none =>
    report (.integerRange token.literal)
    return .int token 0

/-- Reads a block from the token under the cursor, which opens it, to the `}` that closes it or to
the end of the input. -/
def block (inside : Level) : Parser Block := do
  let token ← current
  advance
  let statements ← statementsUntil .rbrace inside.statement #[]
  return .mk token statements.toList

/-- Admits a comma. -/
def comma? (kind : Kind) : Option Unit :=
  if kind = .comma then some () else none

theorem comma?_eof : comma? .eof = none := rfl

/-- Reads the parameters of a function, with the cursor on the parenthesis in front of them. -/
def parameters : OptionT Parser (List Ident) := do
  if (← peekKind) = .rparen then
    advance
    return []
  else
    expect .ident
    let first ← identifier
    let params ← whileNext comma? comma?_eof (fun _ params => do
      expect .ident
      return params.push (← identifier)) #[first]
    expect .rparen
    return params.toList

/-- Reads the arguments of a call, with the cursor on the parenthesis in front of them. -/
def arguments (inside : Level) : OptionT Parser (List Expr) := do
  if (← peekKind) = .rparen then
    advance
    return []
  else
    advance
    let first ← inside.expression .lowest
    let args ← whileNext comma? comma?_eof (fun _ args => do
      advance
      return args.push (← inside.expression .lowest)) #[first]
    expect .rparen
    return args.toList

/-- Reads the branch behind an `else`, if there is one. -/
def alternative (inside : Level) : OptionT Parser (Option Block) := do
  if (← peekKind) = .kwElse then
    advance
    expect .lbrace
    return some (← block inside)
  else
    return none

/-- Reads the operand that begins with the token under the cursor. -/
def operand (inside : Level) : OptionT Parser Expr := do
  let token ← current
  match token.kind with
  | .ident => return .name (.ofToken token)
  | .int => integer token
  | .kwTrue => return .bool token true
  | .kwFalse => return .bool token false
  | .bang | .minus =>
    advance
    return .unary token (← inside.expression .unary)
  | .lparen =>
    advance
    let expr ← inside.expression .lowest
    expect .rparen
    return expr
  | .kwIf =>
    expect .lparen
    advance
    let test ← inside.expression .lowest
    expect .rparen
    expect .lbrace
    let consequence ← block inside
    return .cond token test consequence (← alternative inside)
  | .kwFn =>
    expect .lparen
    let params ← parameters
    expect .lbrace
    return .function token params (← block inside)
  | .illegal =>
    report (.illegal token.literal)
    failure
  | kind =>
    report (.noOperand kind)
    failure

/-- The continuation that a token offers to an expression, if it binds tighter than `precedence`. -/
def tighter? (precedence : Precedence) (kind : Kind) : Option Continuation :=
  kind.continuation?.filter fun continuation => precedence < continuation.precedence

theorem tighter?_eof (precedence : Precedence) : tighter? precedence .eof = none := rfl

/-- Continues the expression `left` with the token under the cursor. The right operand of a binary
operator takes only what binds tighter than the operator itself, so equal operators group to the
left. -/
def continuation (inside : Level) (kind : Continuation) (left : Expr) : OptionT Parser Expr := do
  let token ← current
  match kind with
  | .binary precedence =>
    advance
    return .binary token left (← inside.expression precedence)
  | .suffix => return .suffix token left
  | .call => return .call token left (← arguments inside)

/-- Reads an expression whose operators all bind tighter than `precedence`. -/
def expressionWith (inside : Level) (precedence : Precedence) : OptionT Parser Expr := do
  let first ← operand inside
  whileNext (tighter? precedence) (tighter?_eof precedence) (continuation inside) first

/-- Reads an expression and the `;` that may follow it. The `;` is read even if the expression is
given up. -/
def closedExpression (inside : Level) : OptionT Parser Expr := OptionT.mk do
  let expr ← (inside.expression .lowest).run
  eatSemicolon
  return expr

/-- Moves onto the next token if it is of the wanted kind. Otherwise gives up the whole statement
and skips the rest of it. -/
def expectInStatement (wanted : Kind) : OptionT Parser Unit :=
  expect wanted <|> do
    skipStatement
    failure

/-- Reads the statement that begins with the token under the cursor. -/
def statementWith (inside : Level) : OptionT Parser Stmt := do
  let token ← current
  match token.kind with
  | .kwLet =>
    expectInStatement .ident
    let name ← identifier
    expectInStatement .assign
    advance
    return .letBind token name (← closedExpression inside)
  | .kwReturn =>
    advance
    return .ret token (← closedExpression inside)
  | .lbrace =>
    let block ← block inside
    eatSemicolon
    return .block block
  | _ => return .expr token (← closedExpression inside)

/-- Reports that there is no room inside, skips the rest of the statement and gives up. -/
def tooDeep {Result : Type} : OptionT Parser Result := do
  report .tooDeep
  skipStatement
  failure

end Parser

/-- The parsers for what lies inside something that has `room` levels below it. -/
def Level.inside : Nat → Level
  | 0 => ⟨fun _ => Parser.tooDeep, Parser.tooDeep⟩
  | room + 1 =>
      let inside := Level.inside room
      ⟨Parser.expressionWith inside, Parser.statementWith inside⟩

namespace Parser

/-- Reads an expression whose operators all bind tighter than `precedence`. -/
def expression (precedence : Precedence) : OptionT Parser Expr :=
  (Level.inside nestingLimit).expression precedence

/-- Reads a statement. -/
def statement : OptionT Parser Stmt :=
  (Level.inside nestingLimit).statement

/-- Reads a block, whatever the token under the cursor is. -/
def wholeBlock : Parser Block :=
  block (Level.inside nestingLimit)

/-- Reads statements up to the end of the input. -/
def program : Parser Program := do
  let statements ← statementsUntil .eof statement #[]
  return ⟨statements.toList⟩

end Parser

/-- The program that a source spells, as far as it can be read, and what was reported on the way. -/
def Program.read (source : String) : Program × Report Diagnostic :=
  let (program, cursor) := Parser.program.run (.ofSource source)
  (program, cursor.report)

end Scriptlet
