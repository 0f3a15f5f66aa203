import Scriptlet.Parser.Tree

/-!
# Reading through a window

The parsers of `Scriptlet.Parser.Tree` come to an end because they are defined in a way that leaves
no other choice: they are given a finite list of tokens, and what lies inside something is read with
less room. Here the same reading is described without any of this. A window shows two tokens of a
text, and behind the end of the text it shows end marks for as long as one moves on. The levels of
nesting are counted in the window, and a loop goes on until its condition fails.

Nothing says that this ever ends. So a routine of the reader is only known up to a number of rounds:
`Routines.unroll` is the text of the routines, in which `again` stands for those that are called or
repeated, and `unrolled rounds` allows so many calls inside each other. Without a round left there
is no result.
-/

namespace Scriptlet

/-- What is known of a text at some point of reading it. -/
structure Window where
  /-- What has not been cut into tokens yet. -/
  input : List Char
  /-- The token under the cursor. -/
  current : Token
  /-- The token behind it. -/
  peek : Token
  report : Report Diagnostic := {}
  /-- How many expressions and statements are being read. -/
  depth : Nat := 0

namespace Window

/-- The window one token further on. -/
def next (window : Window) : Window :=
  { window with
    input := (Token.next window.input).2
    current := window.peek
    peek := (Token.next window.input).1 }

/-- The window on the first two tokens of a source. -/
def start (source : String) : Window :=
  let empty : Window := { input := source.toList, current := .eof, peek := .eof }
  empty.next.next

/-- The tokens from the one under the cursor on, up to the end mark. -/
def unread (window : Window) : List Token :=
  if window.current.kind = .eof then []
  else if window.peek.kind = .eof then [window.current]
  else window.current :: window.peek :: Token.all window.input

end Window

/-- What moves a window, unless it has no rounds left. -/
abbrev Run := StateT Window Option

namespace Run

variable {Result Admitted : Type}

def current : Run Token := return (← get).current

def peekKind : Run Kind := return (← get).peek.kind

def next : Run Unit := modify Window.next

def report (diagnostic : Diagnostic) : Run Unit :=
  modify fun window => { window with report := window.report.add diagnostic }

/-- Moves onto the next token if it is of the wanted kind, and gives up otherwise. -/
def expect (wanted : Kind) : OptionT Run Unit := do
  let found ← peekKind
  if found = wanted then
    next
  else
    report (.expected wanted found)
    failure

def eatSemicolon : Run Unit := do
  if (← peekKind) = .semicolon then
    next

def identifier : Run Ident := return .ofToken (← current)

def integer (token : Token) : Run Expr := do
  match Decimal.int64? token.literal with
  | some value => return .int token value
  | none =>
    report (.integerRange token.literal)
    return .int token 0

/-- One round of a loop that goes on while a fitting token follows. -/
def round (follow : Kind → Option Admitted) (step : Admitted → Result → OptionT Run Result)
    (again : Result → OptionT Run Result) (sofar : Result) : OptionT Run Result := do
  (follow (← peekKind)).elim (return sofar) fun admitted => do
    next
    again (← step admitted sofar)

end Run

/-- The routines that are called from within each other, the loops among them. -/
structure Routines where
  /-- Skips what is left of a statement. -/
  skip : Run Unit
  expression : Precedence → OptionT Run Expr
  statement : OptionT Run Stmt
  /-- Continues an expression for as long as a token follows that binds tighter. -/
  continuations : Precedence → Expr → OptionT Run Expr
  /-- Reads further parameters behind commas. -/
  parameters : Array Ident → OptionT Run (Array Ident)
  /-- Reads further arguments behind commas. -/
  arguments : Array Expr → OptionT Run (Array Expr)
  /-- Reads further statements up to a closing token. -/
  statements : Kind → Array Stmt → Run (Array Stmt)

namespace Routines

open Run

variable {Result : Type} (again : Routines)

/-- Reads one level deeper, or gives up if that is too deep. -/
def nested (read : OptionT Run Result) : OptionT Run Result := OptionT.mk do
  if nestingLimit ≤ (← get).depth then
    report .tooDeep
    again.skip
    return none
  else
    modify fun window => { window with depth := window.depth + 1 }
    let result ← read.run
    modify fun window => { window with depth := window.depth - 1 }
    return result

def block : Run Block := do
  let token ← current
  next
  let statements ← again.statements .rbrace #[]
  return .mk token statements.toList

/-- One more parameter, with the cursor in front of it. -/
def parameter (params : Array Ident) : OptionT Run (Array Ident) := do
  expect .ident
  return params.push (← identifier)

def allParameters : OptionT Run (List Ident) := do
  if (← peekKind) = .rparen then
    next
    return []
  else
    expect .ident
    let params ← again.parameters #[← identifier]
    expect .rparen
    return params.toList

def allArguments : OptionT Run (List Expr) := do
  if (← peekKind) = .rparen then
    next
    return []
  else
    next
    let first ← again.expression .lowest
    let args ← again.arguments #[first]
    expect .rparen
    return args.toList

def alternative : OptionT Run (Option Block) := do
  if (← peekKind) = .kwElse then
    next
    expect .lbrace
    return some (← again.block)
  else
    return none

def operand : OptionT Run Expr := do
  let token ← current
  match token.kind with
  | .ident => return .name (.ofToken token)
  | .int => integer token
  | .kwTrue => return .bool token true
  | .kwFalse => return .bool token false
  | .bang | .minus =>
    next
    return .unary token (← again.expression .unary)
  | .lparen =>
    next
    let expr ← again.expression .lowest
    expect .rparen
    return expr
  | .kwIf =>
    expect .lparen
    next
    let test ← again.expression .lowest
    expect .rparen
    expect .lbrace
    let consequence ← again.block
    return .cond token test consequence (← again.alternative)
  | .kwFn =>
    expect .lparen
    let params ← again.allParameters
    expect .lbrace
    return .function token params (← again.block)
  | .illegal =>
    report (.illegal token.literal)
    failure
  | kind =>
    report (.noOperand kind)
    failure

def continuation (kind : Continuation) (left : Expr) : OptionT Run Expr := do
  let token ← current
  match kind with
  | .binary precedence =>
    next
    return .binary token left (← again.expression precedence)
  | .suffix => return .suffix token left
  | .call => return .call token left (← again.allArguments)

def closedExpression : OptionT Run Expr := OptionT.mk do
  let expr ← (again.expression .lowest).run
  eatSemicolon
  return expr

def expectInStatement (wanted : Kind) : OptionT Run Unit :=
  expect wanted <|> do
    again.skip
    failure

def body : OptionT Run Stmt := do
  let token ← current
  match token.kind with
  | .kwLet =>
    again.expectInStatement .ident
    let name ← identifier
    again.expectInStatement .assign
    next
    return .letBind token name (← again.closedExpression)
  | .kwReturn =>
    next
    return .ret token (← again.closedExpression)
  | .lbrace =>
    let block ← again.block
    eatSemicolon
    return .block block
  | _ => return .expr token (← again.closedExpression)

/-- The text of the routines, where `again` stands for all calls and for the next round of all
loops. -/
def unroll : Routines where
  skip := do
    let window ← get
    if window.current.kind ∈ [.semicolon, .eof] ∨
        window.peek.kind ∈ [.rbrace, .kwLet, .kwReturn] then
      return
    else
      next
      again.skip
  expression precedence := again.nested do again.continuations precedence (← again.operand)
  statement := again.nested again.body
  continuations precedence := round (Parser.tighter? precedence) again.continuation
    (again.continuations precedence)
  parameters := round Parser.comma? (fun _ => parameter) again.parameters
  arguments := round Parser.comma? (fun _ args => do
    next
    return args.push (← again.expression .lowest)) again.arguments
  statements close read := do
    let window ← get
    if window.current.kind = close ∨ window.current.kind = .eof then
      return read
    else
      let result ← again.statement.run
      next
      again.statements close (result.elim read read.push)

/-- No routine has a result without a round. -/
def idle : Routines where
  skip := failure
  expression _ := OptionT.mk failure
  statement := OptionT.mk failure
  continuations _ _ := OptionT.mk failure
  parameters _ := OptionT.mk failure
  arguments _ := OptionT.mk failure
  statements _ _ := failure

/-- The routines with a number of rounds. -/
def unrolled : Nat → Routines
  | 0 => idle
  | rounds + 1 => (unrolled rounds).unroll

end Routines

/-! ## Calls from outside -/

/-- What a reader can be asked to read next, wherever it stands. -/
inductive Call where
  | program
  | statement
  | block
  | expression (precedence : Precedence)

/-- What a call was answered with. -/
inductive Answer where
  | program (program : Program)
  | statement (stmt : Option Stmt)
  | block (block : Block)
  | expression (expr : Option Expr)

namespace Call

/-- The call with a number of rounds. -/
def perform (rounds : Nat) : Call → Run Answer
  | program => return .program ⟨(← (Routines.unrolled rounds).statements .eof #[]).toList⟩
  | statement => return .statement (← (Routines.unrolled rounds).statement.run)
  | block => return .block (← (Routines.unrolled rounds).block)
  | expression precedence =>
      return .expression (← ((Routines.unrolled rounds).expression precedence).run)

/-- The parser that answers the call. -/
def parser : Call → Parser Answer
  | program => return .program (← Parser.program)
  | statement => return .statement (← Parser.statement.run)
  | block => return .block (← Parser.wholeBlock)
  | expression precedence => return .expression (← (Parser.expression precedence).run)

/-- The parser that answers the call from inside something. -/
def within (inside : Level) : Call → Parser Answer
  | program => return .program ⟨(← Parser.statementsUntil .eof inside.statement #[]).toList⟩
  | statement => return .statement (← inside.statement.run)
  | block => return .block (← Parser.block inside)
  | expression precedence => return .expression (← (inside.expression precedence).run)

theorem within_inside (call : Call) : call.within (Level.inside nestingLimit) = call.parser := by
  cases call <;> rfl

/-- The call comes to an end: from some number of rounds on, more of them make no difference. -/
def Ends (call : Call) (window : Window) (answer : Answer) (after : Window) : Prop :=
  ∃ enough, ∀ rounds, enough ≤ rounds → (call.perform rounds).run window = some (answer, after)

end Call

/-- The windows of a source after any number of calls. -/
inductive Window.Reached (source : String) : Window → Prop
  | start : Window.Reached source (.start source)
  | call {call : Call} {answer : Answer} {before after : Window}
      (reached : before.Reached source) (ends : call.Ends before answer after) :
      Window.Reached source after

end Scriptlet
