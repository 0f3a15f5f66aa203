import Scriptlet.Eval.Tree
import Scriptlet.Proofs.Tree.Places

/-!
# Interpreters

Evaluating a tree takes a few operations on a state: looking a name up, binding one, creating a
function, opening a scope. An `Interpreter` has these operations for states of any kind, and `run`
goes through a tree with them. The evaluator is the interpreter whose states are stores. Others do
the same and take notes on the way.
-/

namespace Scriptlet

/-! ## Executions -/

/-- Work on a state that ends with a result, or stops before there is one. -/
def Execution (State Stop Result : Type) : Type :=
  State → Except Stop Result × State

namespace Execution

variable {State Stop Result Next : Type}

instance : Monad (Execution State Stop) where
  pure result := fun state => (.ok result, state)
  bind execution next := fun state =>
    match execution state with
    | (.ok result, state) => next result state
    | (.error stop, state) => (.error stop, state)

/-- Does something to the state that has a result. -/
def onState (action : State → Result × State) : Execution State Stop Result := fun state =>
  let (result, state) := action state
  (.ok result, state)

theorem bind_of_ok {execution : Execution State Stop Result}
    {next : Result → Execution State Stop Next} {state after : State} {result : Result}
    (done : execution state = (.ok result, after)) :
    (execution >>= next) state = next result after := by
  simp only [bind, done]

theorem bind_of_error {execution : Execution State Stop Result}
    {next : Result → Execution State Stop Next} {state after : State} {stop : Stop}
    (done : execution state = (.error stop, after)) :
    (execution >>= next) state = (.error stop, after) := by
  simp only [bind, done]

end Execution

/-! ## Running trees -/

/-- The operations that an evaluation along a tree is put together from. Values may carry more than
the evaluator needs, and so may the contexts that trees are evaluated in. -/
structure Interpreter (State Stop Val Ctx : Type) where
  value : Val → Value
  /-- What a value is that comes from an operator or a literal, or is null. -/
  plain : Value → Val
  /-- The context of what lies below a node. -/
  below : Node → Ctx → Ctx
  /-- What is noted when the evaluation of an expression or a statement begins. -/
  visit : Node → Ctx → State → State
  /-- What is noted when it has come to a value. -/
  leave : Node → Val → State → State
  lookup : Ctx → String → State → Option Val
  newFunction : Ctx → List Ident → Block → State → Val × State
  bindName : Ctx → String → Val → State → State
  openInside : Ctx → State → Ctx × State
  openCall : Closure → List Val → State → Ctx × State
  returned : Val → Stop
  failed : Fault → Stop
  returned? : Stop → Option Val
  returned?_returned (val : Val) : returned? (returned val) = some val
  returned?_failed (fault : Fault) : returned? (failed fault) = none

namespace Interpreter

variable {State Stop Val Ctx : Type}

/-- How to run the body of a function on arguments. -/
abbrev Enter (State Stop Val : Type) := Closure → List Val → Execution State Stop Val

variable (interpreter : Interpreter State Stop Val Ctx)

def fail (fault : Fault) : Execution State Stop Val := fun state =>
  (.error (interpreter.failed fault), state)

def ret (val : Val) : Execution State Stop Val := fun state =>
  (.error (interpreter.returned val), state)

/-- Goes on with the value that an operator came to, or stops with the fault in its place. -/
def ofExcept : Except Fault Value → Execution State Stop Val
  | .ok value => pure (interpreter.plain value)
  | .error fault => interpreter.fail fault

/-- The value of a name. -/
def lookupName (ctx : Ctx) (name : String) : Execution State Stop Val := fun state =>
  match interpreter.lookup ctx name state with
  | some val => (.ok val, state)
  | none => (.error (interpreter.failed (.unbound name)), state)

/-- Ends a `return` that comes out of an execution, with its value. -/
def catchReturn (execution : Execution State Stop Val) : Execution State Stop Val := fun state =>
  match execution state with
  | (.ok val, state) => (.ok val, state)
  | (.error stop, state) =>
      match interpreter.returned? stop with
      | some val => (.ok val, state)
      | none => (.error stop, state)

/-- The evaluation of a node, with what is noted of it. -/
def noting (node : Node) (ctx : Ctx) (execution : Execution State Stop Val) :
    Execution State Stop Val := fun state =>
  match execution (interpreter.visit node ctx state) with
  | (.ok val, state) => (.ok val, interpreter.leave node val state)
  | (.error stop, state) => (.error stop, state)

/-- Calls a value. -/
def apply (enter : Enter State Stop Val) (callee : Val) (args : List Val) :
    Execution State Stop Val :=
  match interpreter.value callee with
  | .function closure =>
      if closure.params.length = args.length then enter closure args
      else interpreter.fail (.argumentCount closure.params.length args.length)
  | value => interpreter.fail (.notAFunction value.type)

/-- The function that a literal comes to, and the state when this has been noted. -/
def create (ctx : Ctx) (token : Token) (params : List Ident) (body : Block) (state : State) :
    Val × State :=
  let literal := Node.expr (.function token params body)
  let (val, after) := interpreter.newFunction (interpreter.below literal ctx) params body
    (interpreter.visit literal ctx state)
  (val, interpreter.leave literal val after)

end Interpreter

section Run

variable {State Stop Val Ctx : Type}

mutual

/-- Evaluates an expression in a context. -/
def Expr.run (interpreter : Interpreter State Stop Val Ctx)
    (enter : Interpreter.Enter State Stop Val) (ctx : Ctx) (expr : Expr) :
    Execution State Stop Val :=
  let inner := interpreter.below (.expr expr) ctx
  interpreter.noting (.expr expr) ctx <|
    match expr with
    | .name ident => interpreter.lookupName ctx ident.name
    | .int _ value => return interpreter.plain (.int value)
    | .bool _ value => return interpreter.plain (.bool value)
    | .unary token operand => do
        let operand ← operand.run interpreter enter inner
        interpreter.ofExcept (Value.unary token.kind (interpreter.value operand))
    | .binary token left right => do
        let left ← left.run interpreter enter inner
        let right ← right.run interpreter enter inner
        interpreter.ofExcept
          (Value.binary token.kind (interpreter.value left) (interpreter.value right))
    | .suffix token operand => do
        let operand ← operand.run interpreter enter inner
        interpreter.ofExcept (Value.suffix token.kind (interpreter.value operand))
    | .cond _ test consequence none => do
        let test ← test.run interpreter enter inner
        if (interpreter.value test).truthy then consequence.run interpreter enter inner
        else return interpreter.plain .null
    | .cond _ test consequence (some alternative) => do
        let test ← test.run interpreter enter inner
        if (interpreter.value test).truthy then consequence.run interpreter enter inner
        else alternative.run interpreter enter inner
    | .function _ params body => Execution.onState (interpreter.newFunction inner params body)
    | .call _ callee args => do
        let callee ← callee.run interpreter enter inner
        let args ← runExprs interpreter enter inner args
        interpreter.apply enter callee args
termination_by structural expr

/-- Evaluates several expressions in order. -/
def runExprs (interpreter : Interpreter State Stop Val Ctx)
    (enter : Interpreter.Enter State Stop Val) (ctx : Ctx) :
    List Expr → Execution State Stop (List Val)
  | [] => return []
  | expr :: exprs => do
      let value ← expr.run interpreter enter ctx
      let values ← runExprs interpreter enter ctx exprs
      return value :: values
termination_by structural exprs => exprs

/-- Evaluates a statement in a context. -/
def Stmt.run (interpreter : Interpreter State Stop Val Ctx)
    (enter : Interpreter.Enter State Stop Val) (ctx : Ctx) (stmt : Stmt) :
    Execution State Stop Val :=
  let inner := interpreter.below (.stmt stmt) ctx
  interpreter.noting (.stmt stmt) ctx <|
    match stmt with
    | .letBind _ name value => do
        let value ← value.run interpreter enter inner
        Execution.onState fun state => ((), interpreter.bindName ctx name.name value state)
        return interpreter.plain .null
    | .ret _ value => do
        let value ← value.run interpreter enter inner
        interpreter.ret value
    | .expr _ expr => expr.run interpreter enter inner
    | .block block => block.run interpreter enter inner
termination_by structural stmt

/-- Evaluates several statements in order. -/
def runStmts (interpreter : Interpreter State Stop Val Ctx)
    (enter : Interpreter.Enter State Stop Val) (ctx : Ctx) (last : Val) :
    List Stmt → Execution State Stop Val
  | [] => return last
  | stmt :: stmts => do
      let value ← stmt.run interpreter enter ctx
      runStmts interpreter enter ctx value stmts
termination_by structural stmts => stmts

/-- Evaluates the statements of a block in a scope of their own. -/
def Block.run (interpreter : Interpreter State Stop Val Ctx)
    (enter : Interpreter.Enter State Stop Val) (ctx : Ctx) : Block → Execution State Stop Val
  | .mk token statements => do
      let inner ← Execution.onState
        (interpreter.openInside (interpreter.below (.block (.mk token statements)) ctx))
      runStmts interpreter enter inner (interpreter.plain .null) statements
termination_by structural block => block

end

/-- Runs the body of a function on arguments, with room for so many calls inside each other. -/
def Closure.run (interpreter : Interpreter State Stop Val Ctx) :
    Nat → Interpreter.Enter State Stop Val
  | 0, _, _ => interpreter.fail (.stackOverflow callLimit)
  | room + 1, closure, args => do
      let ctx ← Execution.onState (interpreter.openCall closure args)
      interpreter.catchReturn (runStmts interpreter (Closure.run interpreter room) ctx
        (interpreter.plain .null) closure.body.statements)

end Run

/-! ## The evaluator -/

/-- The interpreter that evaluation is. -/
def Eval.interpreter : Interpreter Store Interrupt Value ScopeId where
  value := id
  plain := id
  below _ scope := scope
  visit _ _ store := store
  leave _ _ store := store
  lookup scope name store := store.get? scope name
  newFunction scope params body store := store.newFunction params body scope
  bindName scope name value store := store.set scope name value
  openInside scope store := store.openInside scope
  openCall closure args store := store.openCall closure args
  returned := .returned
  failed := .failed
  returned?
    | .returned value => some value
    | .failed _ => none
  returned?_returned _ := rfl
  returned?_failed _ := rfl

namespace Eval

variable {Result Next : Type}

theorem interpreter_noting {node : Node} {scope : ScopeId}
    {execution : Execution Store Interrupt Value} (store : Store) :
    interpreter.noting node scope execution store = execution store := by
  rcases done : execution store with ⟨_ | _, _⟩ <;> simp [Interpreter.noting, interpreter, done]

theorem interpreter_ofExcept (outcome : Except Fault Value) (store : Store) :
    interpreter.ofExcept outcome store = Eval.ofExcept outcome store := by
  cases outcome <;> rfl

theorem interpreter_lookupName (scope : ScopeId) (name : String) (store : Store) :
    interpreter.lookupName scope name store = Eval.lookup scope name store := by
  rw [Interpreter.lookupName, Eval.lookup]
  cases found : store.get? scope name <;> simp [interpreter, found]

theorem interpreter_catchReturn {execution : Execution Store Interrupt Value}
    {evaluation : Eval Value} {store : Store} (same : execution store = evaluation store) :
    interpreter.catchReturn execution store = evaluation.catchReturn store := by
  rw [Interpreter.catchReturn, Eval.catchReturn, same]
  rcases evaluation store with ⟨(_ | _) | _, _⟩ <;> rfl

theorem bind_eq_bind {execution : Execution Store Interrupt Result} {evaluation : Eval Result}
    {next : Result → Execution Store Interrupt Next} {rest : Result → Eval Next} {store : Store}
    (first : execution store = evaluation store)
    (second : ∀ result after, next result after = rest result after) :
    (execution >>= next) store = (evaluation >>= rest) store := by
  rcases done : evaluation store with ⟨interrupt | result, after⟩
  · rw [Execution.bind_of_error (first.trans done), bind_of_error done]
  · rw [Execution.bind_of_ok (first.trans done), bind_of_ok done, second]

theorem ite_eq_ite {test : Prop} [Decidable test] {first second : Execution Store Interrupt Result}
    {evaluation other : Eval Result} {store : Store} (yes : first store = evaluation store)
    (no : second store = other store) :
    (if test then first else second) store = (if test then evaluation else other) store := by
  split
  · exact yes
  · exact no

end Eval

section Equations

variable {entered : Interpreter.Enter Store Interrupt Value} {enter : Enter}

theorem Eval.interpreter_apply
    (same : ∀ closure args store, entered closure args store = enter closure args store)
    (callee : Value) (args : List Value) (store : Store) :
    interpreter.apply entered callee args store = callee.apply enter args store := by
  cases callee with
  | function closure => exact ite_eq_ite (same closure args store) rfl
  | int | bool | null => rfl

mutual

theorem Expr.run_eq_of_same
    (same : ∀ closure args store, entered closure args store = enter closure args store) :
    (expr : Expr) → (scope : ScopeId) → (store : Store) →
      expr.run Eval.interpreter entered scope store = expr.eval enter scope store
  | .name ident, scope, store =>
      (Eval.interpreter_noting store).trans (Eval.interpreter_lookupName scope ident.name store)
  | .int _ _, _, _ | .bool _ _, _, _ | .function _ _ _, _, _ => rfl
  | .unary _ operand, scope, store | .suffix _ operand, scope, store =>
      (Eval.interpreter_noting store).trans <|
        Eval.bind_eq_bind (operand.run_eq_of_same same scope store) fun _ =>
          Eval.interpreter_ofExcept _
  | .binary _ left right, scope, store =>
      (Eval.interpreter_noting store).trans <|
        Eval.bind_eq_bind (left.run_eq_of_same same scope store) fun _ store =>
          Eval.bind_eq_bind (right.run_eq_of_same same scope store) fun _ =>
            Eval.interpreter_ofExcept _
  | .cond _ test consequence none, scope, store =>
      (Eval.interpreter_noting store).trans <|
        Eval.bind_eq_bind (test.run_eq_of_same same scope store) fun _ store =>
          Eval.ite_eq_ite (consequence.run_eq_of_same same scope store) rfl
  | .cond _ test consequence (some alternative), scope, store =>
      (Eval.interpreter_noting store).trans <|
        Eval.bind_eq_bind (test.run_eq_of_same same scope store) fun _ store =>
          Eval.ite_eq_ite (consequence.run_eq_of_same same scope store)
            (alternative.run_eq_of_same same scope store)
  | .call _ callee args, scope, store =>
      (Eval.interpreter_noting store).trans <|
        Eval.bind_eq_bind (callee.run_eq_of_same same scope store) fun callee store =>
          Eval.bind_eq_bind (runExprs_eq_of_same same args scope store) fun args store =>
            Eval.interpreter_apply same callee args store

theorem runExprs_eq_of_same
    (same : ∀ closure args store, entered closure args store = enter closure args store) :
    (exprs : List Expr) → (scope : ScopeId) → (store : Store) →
      runExprs Eval.interpreter entered scope exprs store = evalExprs enter scope exprs store
  | [], _, _ => rfl
  | expr :: exprs, scope, store =>
      Eval.bind_eq_bind (expr.run_eq_of_same same scope store) fun _ store =>
        Eval.bind_eq_bind (runExprs_eq_of_same same exprs scope store) fun _ _ => rfl

theorem Stmt.run_eq_of_same
    (same : ∀ closure args store, entered closure args store = enter closure args store) :
    (stmt : Stmt) → (scope : ScopeId) → (store : Store) →
      stmt.run Eval.interpreter entered scope store = stmt.eval enter scope store
  | .letBind _ _ value, scope, store | .ret _ value, scope, store =>
      (Eval.interpreter_noting store).trans <|
        Eval.bind_eq_bind (value.run_eq_of_same same scope store) fun _ _ => rfl
  | .expr _ expr, scope, store =>
      (Eval.interpreter_noting store).trans (expr.run_eq_of_same same scope store)
  | .block block, scope, store =>
      (Eval.interpreter_noting store).trans (block.run_eq_of_same same scope store)

theorem runStmts_eq_of_same
    (same : ∀ closure args store, entered closure args store = enter closure args store) :
    (stmts : List Stmt) → (scope : ScopeId) → (last : Value) → (store : Store) →
      runStmts Eval.interpreter entered scope last stmts store =
        evalStmts enter scope last stmts store
  | [], _, _, _ => rfl
  | stmt :: stmts, scope, _, store =>
      Eval.bind_eq_bind (stmt.run_eq_of_same same scope store) fun value store =>
        runStmts_eq_of_same same stmts scope value store

theorem Block.run_eq_of_same
    (same : ∀ closure args store, entered closure args store = enter closure args store) :
    (block : Block) → (scope : ScopeId) → (store : Store) →
      block.run Eval.interpreter entered scope store = block.eval enter scope store
  | .mk _ statements, _, _ =>
      Eval.bind_eq_bind rfl fun inner store => runStmts_eq_of_same same statements inner .null store

end

end Equations

theorem Closure.run_eq_enter (room : Nat) (closure : Closure) (args : List Value) (store : Store) :
    Closure.run Eval.interpreter room closure args store =
      Closure.enter room closure args store := by
  induction room generalizing closure args store with
  | zero => rfl
  | succ room ih =>
      apply Eval.bind_eq_bind rfl
      intro scope store
      exact Eval.interpreter_catchReturn (runStmts_eq_of_same ih _ scope .null store)

theorem Expr.run_eq_eval (room : Nat) (scope : ScopeId) (expr : Expr) (store : Store) :
    expr.run Eval.interpreter (Closure.run Eval.interpreter room) scope store =
      expr.eval (Closure.enter room) scope store :=
  expr.run_eq_of_same (Closure.run_eq_enter room) scope store

theorem runExprs_eq_evalExprs (room : Nat) (scope : ScopeId) (exprs : List Expr) (store : Store) :
    runExprs Eval.interpreter (Closure.run Eval.interpreter room) scope exprs store =
      evalExprs (Closure.enter room) scope exprs store :=
  runExprs_eq_of_same (Closure.run_eq_enter room) exprs scope store

theorem Stmt.run_eq_eval (room : Nat) (scope : ScopeId) (stmt : Stmt) (store : Store) :
    stmt.run Eval.interpreter (Closure.run Eval.interpreter room) scope store =
      stmt.eval (Closure.enter room) scope store :=
  stmt.run_eq_of_same (Closure.run_eq_enter room) scope store

theorem runStmts_eq_evalStmts (room : Nat) (scope : ScopeId) (last : Value) (stmts : List Stmt)
    (store : Store) :
    runStmts Eval.interpreter (Closure.run Eval.interpreter room) scope last stmts store =
      evalStmts (Closure.enter room) scope last stmts store :=
  runStmts_eq_of_same (Closure.run_eq_enter room) stmts scope last store

end Scriptlet
