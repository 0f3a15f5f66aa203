import Scriptlet.Proofs.Eval.Derivations
import Scriptlet.Proofs.Session.Atomicity

/-!
# Passing values on

A value does not change on its way. A `let` makes it the value of a name wherever the name is looked
up and nothing nearer binds it, a call makes an argument the value of its parameter in the same way,
and what the body of a function comes to, by its last statement or by a `return`, is what the call
comes to.
-/

namespace Scriptlet

/-- Of several bindings of a name the last one counts. -/
theorem Scope.find?_bindAll (scope : Scope) (added : List (String × Value)) (name : String) :
    (scope.bindAll added).find? name = (added.reverse.lookup name).or (scope.find? name) := by
  induction added generalizing scope with
  | nil => simp [Scope.bindAll]
  | cons first added ih =>
      obtain ⟨bound, value⟩ := first
      have step : scope.bindAll ((bound, value) :: added) =
          (scope.bind bound value).bindAll added := rfl
      rw [step, ih, List.reverse_cons, List.lookup_append, Option.or_assoc]
      congr 1
      by_cases same : name = bound
      · simp [same]
      · have skipped : (name == bound) = false := by simpa using same
        simp [find?_bind_of_ne scope value same, List.lookup_cons, skipped]

namespace Store

/-- A search for the name that begins in the inner scope gets to `scope`: on the way there, through
any number of scopes, the name is not bound. -/
inductive Through (store : Store) (name : String) (scope : ScopeId) : ScopeId → Prop
  | here : Through store name scope scope
  | outward {inner outer : ScopeId} {found : Scope} (isScope : store.scopes[inner]? = some found)
      (notBound : found.find? name = none) (link : found.outer = some outer)
      (older : outer < inner) (rest : Through store name scope outer) :
      Through store name scope inner

/-- A name has this value in a scope, and wherever it is seen through other scopes. -/
def Gives (store : Store) (scope : ScopeId) (name : String) (value : Value) : Prop :=
  ∀ inner, store.Through name scope inner → store.get? inner name = some value

variable {store : Store} {scope : ScopeId} {name : String} {value : Value}

theorem gives_of_bound {found : Scope} (isScope : store.scopes[scope]? = some found)
    (bound : found.find? name = some value) : store.Gives scope name value := by
  intro inner through
  induction through with
  | here => exact get?_of_bound isScope bound
  | outward isScope notBound link older _ ih =>
      rw [get?_of_outer isScope notBound link older]
      exact ih

theorem gives_set (isOpen : scope < store.scopes.size) (name : String) (value : Value) :
    (store.set scope name value).Gives scope name value := by
  have isScope : (store.set scope name value).scopes[scope]? =
      some (store.scopes[scope].bind name value) := by
    rw [Store.set, Array.getElem?_modify, if_pos rfl, Array.getElem?_eq_getElem isOpen]
    rfl
  exact gives_of_bound isScope (Scope.find?_bind_self _ _ _)

/-- The scope of a call. -/
theorem getElem?_openCall (store : Store) {closure : Closure} {args : List Value} :
    (store.openCall closure args).2.scopes[(store.openCall closure args).1]? =
      some (Scope.bindAll { outer := some closure.scope }
        ((closure.params.map Ident.name).zip args)) := by
  simp [openCall, push]

/-- A parameter has its argument for a value. Of parameters with the same name this is the last. -/
theorem gives_openCall {closure : Closure} {args : List Value}
    (last : ((closure.params.map Ident.name).zip args).reverse.lookup name = some value) :
    (store.openCall closure args).2.Gives (store.openCall closure args).1 name value := by
  apply gives_of_bound store.getElem?_openCall
  simp [Scope.find?_bindAll, last]

end Store

/-- The evaluation comes to the value, by itself or by a `return`. -/
def Eval.Yields (evaluation : Eval Value) (store : Store) (value : Value) (after : Store) : Prop :=
  evaluation store = (.ok value, after) ∨ evaluation store = (.error (.returned value), after)

section Statements

variable {enter : Enter} {scope : ScopeId} {store middle after : Store} {last earlier value : Value}
  {before : List Stmt} {expr : Expr}

theorem Stmt.gives_letBind (done : expr.eval enter scope store = (.ok value, after))
    (isOpen : scope < after.scopes.size) (token : Token) (name : Ident) :
    ((Stmt.letBind token name expr).eval enter scope store).2.Gives scope name.name value := by
  rw [Stmt.eval, Eval.bind_of_ok done]
  exact Store.gives_set isOpen name.name value

/-- Statements that end with an expression come to its value. -/
theorem yields_append_expr
    (complete : evalStmts enter scope last before store = (.ok earlier, middle))
    (done : expr.eval enter scope middle = (.ok value, after)) (token : Token) :
    (evalStmts enter scope last (before ++ [.expr token expr])).Yields store value after := by
  left
  rw [evalStmts_append _ complete, evalStmts_singleton]
  exact done

/-- A `return` among statements that is reached ends them with its value. -/
theorem yields_append_ret
    (complete : evalStmts enter scope last before store = (.ok earlier, middle))
    (done : expr.eval enter scope middle = (.ok value, after)) (token : Token)
    (others : List Stmt) :
    (evalStmts enter scope last (before ++ .ret token expr :: others)).Yields store value
      after := by
  have stopped : (Stmt.ret token expr).eval enter scope middle =
      (.error (.returned value), after) := by
    rw [Stmt.eval, Eval.bind_of_ok done]
    rfl
  right
  exact evalStmts_of_interrupted complete stopped others

end Statements

/-- A call comes to what the body of the function comes to. -/
theorem Closure.enter_of_yields {room : Nat} {closure : Closure} {args : List Value}
    {store after : Store} {value : Value}
    (body : (evalStmts (Closure.enter room) (store.openCall closure args).1 .null
      closure.body.statements).Yields (store.openCall closure args).2 value after) :
    Closure.enter (room + 1) closure args store = (.ok value, after) := by
  change (evalStmts (Closure.enter room) (store.openCall closure args).1 .null
    closure.body.statements).catchReturn (store.openCall closure args).2 = _
  rw [Eval.catchReturn]
  rcases body with done | returned
  · rw [done]
  · rw [returned]

end Scriptlet
