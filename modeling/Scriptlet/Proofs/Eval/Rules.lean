import Scriptlet.Eval.Tree

/-!
# Rules of evaluation

The language once more, as rules. A derivation is a finite evaluation, so that something evaluates
at all has to be proved: nothing in the rules bounds the depth of a derivation. The body of a
function is looked up in a value and lies anywhere, and a name is searched outward along whatever
outer scopes there are.

Apart from the store there is a counter for the calls that are being evaluated. A call checks it,
raises it for the body and lowers it afterwards, however the body ends.
-/

namespace Scriptlet

/-- The value of a name as seen from a scope, or nothing if the search ends without it. -/
inductive LooksUp (store : Store) (name : String) : ScopeId → Option Value → Prop
  | here {id : ScopeId} {scope : Scope} {value : Value} (isScope : store.scopes[id]? = some scope)
      (bound : scope.find? name = some value) : LooksUp store name id (some value)
  | outward {id outer : ScopeId} {scope : Scope} {found : Option Value}
      (isScope : store.scopes[id]? = some scope) (notBound : scope.find? name = none)
      (link : scope.outer = some outer) (search : LooksUp store name outer found) :
      LooksUp store name id found
  | missing {id : ScopeId} {scope : Scope} (isScope : store.scopes[id]? = some scope)
      (notBound : scope.find? name = none) (noLink : scope.outer = none) :
      LooksUp store name id none

/-- What evaluations work on: a store, and the number of calls that are being evaluated. -/
structure Machine where
  store : Store
  depth : Nat

/-- The expressions whose values an expression is made from, in the order of evaluation. -/
def Expr.operands : Expr → List Expr
  | .name _ | .int _ _ | .bool _ _ | .function _ _ _ => []
  | .unary _ operand | .suffix _ operand => [operand]
  | .binary _ left right => [left, right]
  | .cond _ test _ _ => [test]
  | .call _ callee args => callee :: args

/-- How the body of a function ends for the caller: a `return` ends it with its value. -/
def caught : Except Interrupt Value → Except Interrupt Value
  | .error (.returned value) => .ok value
  | outcome => outcome

namespace Rules

mutual

/-- Evaluates an expression in a scope. -/
inductive Expression : ScopeId → Expr → Machine → Except Interrupt Value → Machine → Prop
  | interrupted {scope : ScopeId} {expr : Expr} {before after : Machine} {interrupt : Interrupt}
      (operands : Expressions scope expr.operands before (.error interrupt) after) :
      Expression scope expr before (.error interrupt) after
  | bound {scope : ScopeId} {ident : Ident} {machine : Machine} {value : Value}
      (search : LooksUp machine.store ident.name scope (some value)) :
      Expression scope (.name ident) machine (.ok value) machine
  | unbound {scope : ScopeId} {ident : Ident} {machine : Machine}
      (search : LooksUp machine.store ident.name scope none) :
      Expression scope (.name ident) machine (.error (.failed (.unbound ident.name))) machine
  | int {scope : ScopeId} {token : Token} {value : Int64} {machine : Machine} :
      Expression scope (.int token value) machine (.ok (.int value)) machine
  | bool {scope : ScopeId} {token : Token} {value : Bool} {machine : Machine} :
      Expression scope (.bool token value) machine (.ok (.bool value)) machine
  | unary {scope : ScopeId} {token : Token} {operand : Expr} {before after : Machine}
      {value : Value} (inner : Expression scope operand before (.ok value) after) :
      Expression scope (.unary token operand) before
        ((Value.unary token.kind value).mapError .failed) after
  | binary {scope : ScopeId} {token : Token} {left right : Expr} {before middle after : Machine}
      {leftValue rightValue : Value}
      (leftOperand : Expression scope left before (.ok leftValue) middle)
      (rightOperand : Expression scope right middle (.ok rightValue) after) :
      Expression scope (.binary token left right) before
        ((Value.binary token.kind leftValue rightValue).mapError .failed) after
  | suffix {scope : ScopeId} {token : Token} {operand : Expr} {before after : Machine}
      {value : Value} (inner : Expression scope operand before (.ok value) after) :
      Expression scope (.suffix token operand) before
        ((Value.suffix token.kind value).mapError .failed) after
  | consequence {scope : ScopeId} {token : Token} {test : Expr} {consequence : Scriptlet.Block}
      {alternative : Option Scriptlet.Block} {before middle after : Machine} {value : Value}
      {outcome : Except Interrupt Value}
      (condition : Expression scope test before (.ok value) middle)
      (truthy : value.truthy = true) (branch : Block scope consequence middle outcome after) :
      Expression scope (.cond token test consequence alternative) before outcome after
  | alternative {scope : ScopeId} {token : Token} {test : Expr}
      {consequence alternative : Scriptlet.Block} {before middle after : Machine} {value : Value}
      {outcome : Except Interrupt Value}
      (condition : Expression scope test before (.ok value) middle)
      (falsy : value.truthy = false) (branch : Block scope alternative middle outcome after) :
      Expression scope (.cond token test consequence (some alternative)) before outcome after
  | noAlternative {scope : ScopeId} {token : Token} {test : Expr} {consequence : Scriptlet.Block}
      {before after : Machine} {value : Value}
      (condition : Expression scope test before (.ok value) after)
      (falsy : value.truthy = false) :
      Expression scope (.cond token test consequence none) before (.ok .null) after
  | function {scope : ScopeId} {token : Token} {params : List Ident} {body : Scriptlet.Block}
      {machine : Machine} :
      Expression scope (.function token params body) machine
        (.ok (machine.store.newFunction params body scope).1)
        ⟨(machine.store.newFunction params body scope).2, machine.depth⟩
  | call {scope : ScopeId} {token : Token} {callee : Expr} {args : List Expr}
      {before middle late after : Machine} {value : Value} {values : List Value}
      {outcome : Except Interrupt Value}
      (function : Expression scope callee before (.ok value) middle)
      (arguments : Expressions scope args middle (.ok values) late)
      (application : Application value values late outcome after) :
      Expression scope (.call token callee args) before outcome after

/-- Evaluates several expressions in order, up to the first interrupt. -/
inductive Expressions :
    ScopeId → List Expr → Machine → Except Interrupt (List Value) → Machine → Prop
  | nil {scope : ScopeId} {machine : Machine} : Expressions scope [] machine (.ok []) machine
  | cons {scope : ScopeId} {expr : Expr} {exprs : List Expr} {before middle after : Machine}
      {value : Value} {values : List Value}
      (first : Expression scope expr before (.ok value) middle)
      (others : Expressions scope exprs middle (.ok values) after) :
      Expressions scope (expr :: exprs) before (.ok (value :: values)) after
  | interruptedFirst {scope : ScopeId} {expr : Expr} {exprs : List Expr} {before after : Machine}
      {interrupt : Interrupt} (first : Expression scope expr before (.error interrupt) after) :
      Expressions scope (expr :: exprs) before (.error interrupt) after
  | interruptedLater {scope : ScopeId} {expr : Expr} {exprs : List Expr}
      {before middle after : Machine} {value : Value} {interrupt : Interrupt}
      (first : Expression scope expr before (.ok value) middle)
      (others : Expressions scope exprs middle (.error interrupt) after) :
      Expressions scope (expr :: exprs) before (.error interrupt) after

/-- Evaluates a statement in a scope. -/
inductive Statement : ScopeId → Stmt → Machine → Except Interrupt Value → Machine → Prop
  | letBind {scope : ScopeId} {token : Token} {name : Ident} {expr : Expr} {before after : Machine}
      {value : Value} (inner : Expression scope expr before (.ok value) after) :
      Statement scope (.letBind token name expr) before (.ok .null)
        ⟨after.store.set scope name.name value, after.depth⟩
  | interruptedLet {scope : ScopeId} {token : Token} {name : Ident} {expr : Expr}
      {before after : Machine} {interrupt : Interrupt}
      (inner : Expression scope expr before (.error interrupt) after) :
      Statement scope (.letBind token name expr) before (.error interrupt) after
  | ret {scope : ScopeId} {token : Token} {expr : Expr} {before after : Machine} {value : Value}
      (inner : Expression scope expr before (.ok value) after) :
      Statement scope (.ret token expr) before (.error (.returned value)) after
  | interruptedReturn {scope : ScopeId} {token : Token} {expr : Expr} {before after : Machine}
      {interrupt : Interrupt} (inner : Expression scope expr before (.error interrupt) after) :
      Statement scope (.ret token expr) before (.error interrupt) after
  | expr {scope : ScopeId} {token : Token} {expr : Expr} {before after : Machine}
      {outcome : Except Interrupt Value} (inner : Expression scope expr before outcome after) :
      Statement scope (.expr token expr) before outcome after
  | block {scope : ScopeId} {block : Scriptlet.Block} {before after : Machine}
      {outcome : Except Interrupt Value} (inner : Block scope block before outcome after) :
      Statement scope (.block block) before outcome after

/-- Evaluates statements in order, up to the first interrupt. The value is that of the last one, or
the given one if there is none. -/
inductive Statements :
    ScopeId → Value → List Stmt → Machine → Except Interrupt Value → Machine → Prop
  | nil {scope : ScopeId} {last : Value} {machine : Machine} :
      Statements scope last [] machine (.ok last) machine
  | cons {scope : ScopeId} {last value : Value} {stmt : Stmt} {stmts : List Stmt}
      {before middle after : Machine} {outcome : Except Interrupt Value}
      (first : Statement scope stmt before (.ok value) middle)
      (others : Statements scope value stmts middle outcome after) :
      Statements scope last (stmt :: stmts) before outcome after
  | interrupted {scope : ScopeId} {last : Value} {stmt : Stmt} {stmts : List Stmt}
      {before after : Machine} {interrupt : Interrupt}
      (first : Statement scope stmt before (.error interrupt) after) :
      Statements scope last (stmt :: stmts) before (.error interrupt) after

/-- Evaluates a block in a new scope inside the given one. -/
inductive Block : ScopeId → Scriptlet.Block → Machine → Except Interrupt Value → Machine → Prop
  | mk {scope : ScopeId} {token : Token} {stmts : List Stmt} {before after : Machine}
      {outcome : Except Interrupt Value}
      (inside : Statements (before.store.openInside scope).1 .null stmts
        ⟨(before.store.openInside scope).2, before.depth⟩ outcome after) :
      Block scope (.mk token stmts) before outcome after

/-- Applies a value to arguments. -/
inductive Application : Value → List Value → Machine → Except Interrupt Value → Machine → Prop
  | notAFunction {value : Value} {args : List Value} {machine : Machine}
      (notFunction : value.type ≠ .function) :
      Application value args machine (.error (.failed (.notAFunction value.type))) machine
  | argumentCount {closure : Closure} {args : List Value} {machine : Machine}
      (mismatch : closure.params.length ≠ args.length) :
      Application (.function closure) args machine
        (.error (.failed (.argumentCount closure.params.length args.length))) machine
  | stackOverflow {closure : Closure} {args : List Value} {machine : Machine}
      (fits : closure.params.length = args.length) (full : callLimit ≤ machine.depth) :
      Application (.function closure) args machine
        (.error (.failed (.stackOverflow callLimit))) machine
  | enter {closure : Closure} {args : List Value} {before after : Machine}
      {outcome : Except Interrupt Value} (fits : closure.params.length = args.length)
      (room : before.depth < callLimit)
      (body : Statements (before.store.openCall closure args).1 .null closure.body.statements
        ⟨(before.store.openCall closure args).2, before.depth + 1⟩ outcome after) :
      Application (.function closure) args before (caught outcome)
        ⟨after.store, after.depth - 1⟩

end

/-- How an outcome counts at the top: a `return` that reaches it has its value as the result. -/
inductive Settles : Except Interrupt Value → Except Fault Value → Prop
  | value (value : Value) : Settles (.ok value) (.ok value)
  | returned (value : Value) : Settles (.error (.returned value)) (.ok value)
  | failed (fault : Fault) : Settles (.error (.failed fault)) (.error fault)

/-- An evaluation at the top ends with a result, a value or a fault, and leaves a machine. -/
def Ends (rule : Machine → Except Interrupt Value → Machine → Prop) (before : Machine)
    (done : Except Fault Value × Machine) : Prop :=
  ∃ outcome, rule before outcome done.2 ∧ Settles outcome done.1

end Rules

end Scriptlet
