import Scriptlet.Parser.Tree
import Scriptlet.Tree.Role

/-!
# What parsers build

A parser goes on behind a mistake and keeps what it has read so far. What it builds is described
here for all inputs, with the mistakes among them: `Expr.Built`, `Stmt.Built` and `Block.Built` say
how the nodes of a tree come from the tokens of a source, and how many levels of nesting they take.

Nothing that is reported is ever taken back. So the errors that a tree depends on can be looked for
in all that is reported in the end, which is in the `Transcript`.
-/

namespace Scriptlet

/-- The tokens of a source, and all the errors that were reported on them. -/
structure Transcript where
  tokens : List Token
  errors : List Diagnostic

namespace Transcript

/-- A token of the source of a kind that the role allows. -/
structure Fills (transcript : Transcript) (role : Role) (token : Token) : Prop where
  read : token ∈ transcript.tokens
  allowed : token.kind ∈ role.allowed

structure Names (transcript : Transcript) (role : Role) (ident : Ident) : Prop where
  fills : transcript.Fills role ident.token
  name_eq : ident.name = ident.token.literal

/-- The value of an integer token. An integer that is too large was reported and counts as zero. -/
def Denotes (transcript : Transcript) (token : Token) (value : Int64) : Prop :=
  if Decimal.value token.literal.toList < Nat.pow 2 63 then
    value = Int64.ofNat (Decimal.value token.literal.toList)
  else
    value = 0 ∧ .integerRange token.literal ∈ transcript.errors

end Transcript

section Built

variable (transcript : Transcript)

mutual

/-- The expressions that are built from a source with some levels of nesting. What lies to the left
of an operator needs no level of its own, and parentheses take a level but leave no node. -/
inductive Expr.Built : Nat → Expr → Prop
  | name {room : Nat} {ident : Ident} (names : transcript.Names .identifier ident) :
      Expr.Built (room + 1) (.name ident)
  | int {room : Nat} {token : Token} {value : Int64} (fills : transcript.Fills .integer token)
      (denotes : transcript.Denotes token value) : Expr.Built (room + 1) (.int token value)
  | bool {room : Nat} {token : Token} {value : Bool} (fills : transcript.Fills .boolean token)
      (isTrue_iff : value = true ↔ token.kind = .kwTrue) :
      Expr.Built (room + 1) (.bool token value)
  | unary {room : Nat} {token : Token} {operand : Expr} (fills : transcript.Fills .unary token)
      (inner : Expr.Built room operand) : Expr.Built (room + 1) (.unary token operand)
  | binary {room : Nat} {token : Token} {left right : Expr} (fills : transcript.Fills .binary token)
      (leftOperand : Expr.Built (room + 1) left) (rightOperand : Expr.Built room right) :
      Expr.Built (room + 1) (.binary token left right)
  | suffix {room : Nat} {token : Token} {operand : Expr} (fills : transcript.Fills .suffix token)
      (inner : Expr.Built (room + 1) operand) : Expr.Built (room + 1) (.suffix token operand)
  | group {room : Nat} {expr : Expr} (inner : Expr.Built room expr) : Expr.Built (room + 1) expr
  | cond {room : Nat} {token : Token} {test : Expr} {consequence : Block}
      {alternative : Option Block} (fills : transcript.Fills .cond token)
      (condition : Expr.Built room test) (branch : Block.Built room consequence)
      (elseBranch : ∀ block ∈ alternative, Block.Built room block) :
      Expr.Built (room + 1) (.cond token test consequence alternative)
  | function {room : Nat} {token : Token} {params : List Ident} {body : Block}
      (fills : transcript.Fills .function token)
      (parameters : ∀ param ∈ params, transcript.Names .parameter param)
      (block : Block.Built room body) : Expr.Built (room + 1) (.function token params body)
  | call {room : Nat} {token : Token} {callee : Expr} {args : List Expr}
      (fills : transcript.Fills .call token) (function : Expr.Built (room + 1) callee)
      (arguments : ∀ arg ∈ args, Expr.Built room arg) :
      Expr.Built (room + 1) (.call token callee args)

inductive Stmt.Built : Nat → Stmt → Prop
  | letBind {room : Nat} {token : Token} {name : Ident} {expr : Expr}
      (fills : transcript.Fills .letBind token) (names : transcript.Names .letName name)
      (value : Expr.Built room expr) : Stmt.Built (room + 1) (.letBind token name expr)
  | ret {room : Nat} {token : Token} {expr : Expr} (fills : transcript.Fills .ret token)
      (value : Expr.Built room expr) : Stmt.Built (room + 1) (.ret token expr)
  | expr {room : Nat} {token : Token} {expr : Expr} (read : token ∈ transcript.tokens)
      (inner : Expr.Built room expr) : Stmt.Built (room + 1) (.expr token expr)
  | block {room : Nat} {block : Block} (inner : Block.Built room block) :
      Stmt.Built (room + 1) (.block block)

inductive Block.Built : Nat → Block → Prop
  | mk {room : Nat} {token : Token} {stmts : List Stmt} (fills : transcript.Fills .block token)
      (statements : ∀ stmt ∈ stmts, Stmt.Built room stmt) : Block.Built room (.mk token stmts)

end

end Built

/-! ## Tokens under a cursor -/

namespace Transcript

variable {transcript : Transcript} {cursor : Cursor}

/-- A token that is not the end mark is one of the source. -/
theorem mem_of_current (inSource : cursor.tokens <:+ transcript.tokens)
    (notEnd : cursor.current.kind ≠ .eof) : cursor.current ∈ transcript.tokens := by
  have nonempty := Cursor.tokens_ne_nil_of_current notEnd
  apply inSource.subset
  rw [Cursor.current, List.headD_eq_head?_getD, List.head?_eq_some_head nonempty]
  exact List.head_mem nonempty

/-- The token under the cursor fills a role if its kind is one that the role allows. -/
theorem fills_current {role : Role} (inSource : cursor.tokens <:+ transcript.tokens)
    (allowed : cursor.current.kind ∈ role.allowed) : transcript.Fills role cursor.current := by
  refine ⟨mem_of_current inSource ?_, allowed⟩
  intro isEnd
  rw [isEnd] at allowed
  cases role <;> simp [Role.allowed] at allowed

theorem names_current {role : Role} (inSource : cursor.tokens <:+ transcript.tokens)
    (allowed : cursor.current.kind ∈ role.allowed) :
    transcript.Names role (.ofToken cursor.current) :=
  ⟨fills_current inSource allowed, rfl⟩

end Transcript

end Scriptlet
