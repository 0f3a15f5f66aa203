import Scriptlet.Eval.Value

/-!
# Scopes and stores

A scope binds names to values and may lie inside another scope, its outer one. All scopes live in a
store, numbered in the order in which they were opened. Binding a name changes one scope of the
store, and a name is looked up from a scope outward.

A scope is opened inside one that exists already, so its number is greater than that of its outer
scope. Looking a name up relies on this: it goes on outward only to smaller numbers.
-/

namespace Scriptlet

/-- Bindings of names to values, inside an outer scope or not. -/
structure Scope where
  bindings : List (String × Value) := []
  outer : Option ScopeId := none
  deriving DecidableEq

namespace Scope

/-- The value of a name in this scope alone. -/
def find? (scope : Scope) (name : String) : Option Value :=
  scope.bindings.lookup name

/-- The scope with a name bound to a value, in place of what the name was bound to before. -/
def bind (scope : Scope) (name : String) (value : Value) : Scope :=
  { scope with bindings := (name, value) :: scope.bindings.filter (·.1 ≠ name) }

/-- The scope with several names bound one after the other, so that of equal names the last one
counts. -/
def bindAll (scope : Scope) (bindings : List (String × Value)) : Scope :=
  bindings.foldl (fun scope binding => scope.bind binding.1 binding.2) scope

/-- A name that was just bound has its new value. -/
@[simp]
theorem find?_bind_self (scope : Scope) (name : String) (value : Value) :
    (scope.bind name value).find? name = some value := by
  simp [find?, bind]

/-- Binding a name changes no other one. -/
theorem find?_bind_of_ne (scope : Scope) {name other : String} (value : Value)
    (distinct : other ≠ name) : (scope.bind name value).find? other = scope.find? other := by
  have skipped : (other == name) = false := by simpa using distinct
  simp only [find?, bind, List.lookup_cons, skipped]
  induction scope.bindings with
  | nil => rfl
  | cons binding bindings ih =>
      obtain ⟨bound, old⟩ := binding
      by_cases removed : bound = name
      · subst removed
        simpa [List.lookup_cons, skipped] using ih
      · simp_all [List.lookup_cons]

end Scope

/-- All scopes, and the number of functions created so far. -/
structure Store where
  scopes : Array Scope := #[]
  functions : Nat := 0
  deriving DecidableEq

namespace Store

/-- A store without scopes. -/
def empty : Store := {}

/-- Adds a scope. -/
def push (store : Store) (scope : Scope) : ScopeId × Store :=
  (store.scopes.size, { store with scopes := store.scopes.push scope })

/-- Opens a global scope, which lies in no other. -/
def openGlobal (store : Store) : ScopeId × Store :=
  store.push {}

/-- Opens a scope inside another one. -/
def openInside (store : Store) (outer : ScopeId) : ScopeId × Store :=
  store.push { outer := some outer }

/-- Binds a name in a scope. What the name means in outer scopes is hidden, not changed. -/
def set (store : Store) (scope : ScopeId) (name : String) (value : Value) : Store :=
  { store with scopes := store.scopes.modify scope (·.bind name value) }

/-- The value of a name as seen from a scope: that of the first scope outward that binds it. -/
def get? (store : Store) (scope : ScopeId) (name : String) : Option Value :=
  match store.scopes[scope]? with
  | none => none
  | some found =>
      match found.find? name with
      | some value => some value
      | none =>
          match found.outer with
          | none => none
          | some outer => if outer < scope then store.get? outer name else none
termination_by scope

/-- Creates a function in a scope. -/
def newFunction (store : Store) (params : List Ident) (body : Block) (scope : ScopeId) :
    Value × Store :=
  (.function ⟨store.functions, params, body, scope⟩,
    { store with functions := store.functions + 1 })

/-- Opens the scope for a call: inside the one the function was created in, with the parameters
bound to the arguments. -/
def openCall (store : Store) (closure : Closure) (args : List Value) : ScopeId × Store :=
  let scope : Scope := { outer := some closure.scope }
  store.push (scope.bindAll ((closure.params.map Ident.name).zip args))

end Store

end Scriptlet
