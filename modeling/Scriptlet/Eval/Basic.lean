import Scriptlet.Eval.Fault
import Scriptlet.Eval.Store

/-!
# Evaluations

An evaluation works on a store. It ends with a result, or is interrupted: by a `return`, which
carries its value to the call around it, or by a fault. Either way the store keeps what was done to
it until then.
-/

namespace Scriptlet

/-- What ends an evaluation before it has a result. -/
inductive Interrupt where
  | returned (value : Value)
  | failed (fault : Fault)
  deriving DecidableEq

/-- Evaluations: they work on a store and may be interrupted. -/
def Eval (Result : Type) : Type :=
  Store → Except Interrupt Result × Store

namespace Eval

variable {Result Next : Type}

@[always_inline, inline]
protected def pure (result : Result) : Eval Result := fun store =>
  (.ok result, store)

@[always_inline, inline]
protected def bind (evaluation : Eval Result) (next : Result → Eval Next) : Eval Next :=
    fun store =>
  match evaluation store with
  | (.ok result, store) => next result store
  | (.error interrupt, store) => (.error interrupt, store)

instance : Monad Eval where
  pure := Eval.pure
  bind := Eval.bind

/-- Stops with an interrupt. -/
def interrupt (interrupt : Interrupt) : Eval Result := fun store =>
  (.error interrupt, store)

/-- Stops with a fault. -/
def fail (fault : Fault) : Eval Result :=
  interrupt (.failed fault)

/-- Goes on with a result, or stops with the fault in its place. -/
def ofExcept : Except Fault Result → Eval Result
  | .ok result => pure result
  | .error fault => fail fault

/-- Does something to the store that has a result. -/
def onStore (action : Store → Result × Store) : Eval Result := fun store =>
  let (result, store) := action store
  (.ok result, store)

/-- The value of a name as seen from a scope. -/
def lookup (scope : ScopeId) (name : String) : Eval Value := fun store =>
  match store.get? scope name with
  | some value => (.ok value, store)
  | none => (.error (.failed (.unbound name)), store)

/-- Binds a name in a scope. -/
def bindName (scope : ScopeId) (name : String) (value : Value) : Eval Unit :=
  onStore fun store => ((), store.set scope name value)

/-- Creates a function in a scope. -/
def newFunction (params : List Ident) (body : Block) (scope : ScopeId) : Eval Value :=
  onStore (·.newFunction params body scope)

/-- Opens a scope inside another one. -/
def openInside (outer : ScopeId) : Eval ScopeId :=
  onStore (·.openInside outer)

/-- Opens the scope for a call. -/
def openCall (closure : Closure) (args : List Value) : Eval ScopeId :=
  onStore (·.openCall closure args)

/-- Ends a `return` that comes out of an evaluation, with its value. -/
def catchReturn (evaluation : Eval Value) : Eval Value := fun store =>
  match evaluation store with
  | (.error (.returned value), store) => (.ok value, store)
  | done => done

/-- Runs an evaluation to its end. A `return` that nothing catches ends it with its value. -/
def settle (evaluation : Eval Value) (store : Store) : Except Fault Value × Store :=
  match evaluation store with
  | (.ok value, store) | (.error (.returned value), store) => (.ok value, store)
  | (.error (.failed fault), store) => (.error fault, store)

theorem bind_apply (evaluation : Eval Result) (next : Result → Eval Next) (store : Store) :
    (evaluation >>= next) store =
      match evaluation store with
      | (.ok result, store) => next result store
      | (.error interrupt, store) => (.error interrupt, store) :=
  rfl

theorem bind_of_ok {evaluation : Eval Result} {next : Result → Eval Next} {store after : Store}
    {result : Result} (done : evaluation store = (.ok result, after)) :
    (evaluation >>= next) store = next result after := by
  rw [bind_apply, done]

theorem bind_of_error {evaluation : Eval Result} {next : Result → Eval Next} {store after : Store}
    {interrupt : Interrupt} (done : evaluation store = (.error interrupt, after)) :
    (evaluation >>= next) store = (.error interrupt, after) := by
  rw [bind_apply, done]

/-- An evaluation in two steps is interrupted in the first one or gets to the second. -/
theorem bind_cases {evaluation : Eval Result} {next : Result → Eval Next} {store after : Store}
    {outcome : Except Interrupt Next} (done : (evaluation >>= next) store = (outcome, after)) :
    (∃ interrupt, evaluation store = (.error interrupt, after) ∧ outcome = .error interrupt) ∨
      ∃ result middle, evaluation store = (.ok result, middle) ∧
        next result middle = (outcome, after) := by
  rcases first : evaluation store with ⟨result, middle⟩
  cases result with
  | error interrupt =>
      rw [bind_of_error first] at done
      cases done
      exact .inl ⟨interrupt, rfl, rfl⟩
  | ok result =>
      rw [bind_of_ok first] at done
      exact .inr ⟨result, middle, rfl, done⟩

end Eval

end Scriptlet
