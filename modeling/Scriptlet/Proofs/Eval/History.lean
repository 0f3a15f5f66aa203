import Scriptlet.Proofs.Eval.Derivations
import Scriptlet.Proofs.Eval.Frame

/-!
# What scopes remember

Scopes are opened and names are bound in them in any order, so a scope may change long after others
were opened inside it. What a name means then can be told without any scopes, from what was done to
them. Each scope was opened once, and this says what lies outward of it. In each scope a name was
given some values, and the most recent one counts.
-/

namespace Scriptlet

/-- What was done to scopes, the most recent first, by the number of scopes that there are then. A
scope is only opened inside one that exists, and names are only bound in scopes that exist. -/
inductive History : Nat → Type
  | start : History 0
  | openGlobal {size : Nat} (earlier : History size) : History (size + 1)
  | openInside {size : Nat} (earlier : History size) (outer : Fin size) : History (size + 1)
  | set {size : Nat} (earlier : History size) (scope : Fin size) (name : String) (value : Value) :
      History size

namespace History

/-- The store that all this leads to. -/
def store {size : Nat} : History size → Store
  | start => .empty
  | openGlobal earlier => earlier.store.openGlobal.2
  | openInside earlier outer => (earlier.store.openInside outer).2
  | set earlier scope name value => earlier.store.set scope name value

/-- The scopes that are met on the way outward from a scope, which is the first of them. -/
def outward {size : Nat} (history : History size) (id : ScopeId) : List ScopeId :=
  match size, history with
  | _, start => []
  | size + 1, openGlobal earlier => if id = size then [id] else earlier.outward id
  | size + 1, openInside earlier outer =>
      if id = size then id :: earlier.outward outer else earlier.outward id
  | _, set earlier _ _ _ => earlier.outward id

/-- The values that a name was given in a scope, the most recent one first. -/
def values {size : Nat} (history : History size) (id : ScopeId) (name : String) : List Value :=
  match history with
  | start => []
  | openGlobal earlier | openInside earlier _ => earlier.values id name
  | set earlier scope other value =>
      if scope = id ∧ other = name then value :: earlier.values id name
      else earlier.values id name

variable {size id : Nat}

@[simp]
theorem size_scopes_store (history : History size) : history.store.scopes.size = size := by
  induction history with
  | start => rfl
  | openGlobal earlier ih => simp [store, Store.openGlobal, Store.push, ih]
  | openInside earlier outer ih => simp [store, Store.openInside, Store.push, ih]
  | set earlier scope name value ih => simp [store, Store.set, ih]

/-- Nothing was bound in a scope before it was opened. -/
theorem values_eq_nil (history : History size) (notOpen : size ≤ id) (name : String) :
    history.values id name = [] := by
  induction history with
  | start => rfl
  | openGlobal earlier ih => exact ih (by omega)
  | openInside earlier outer ih => exact ih (by omega)
  | set earlier scope other value ih =>
      have elsewhere : scope.val ≠ id := by omega
      simp [values, elsewhere, ih notOpen]

/-- A scope binds a name to the most recent value that the name was given in it. -/
theorem find?_store (history : History size) (id : ScopeId) (name : String) :
    (history.store.scopes[id]?.bind (·.find? name)) = (history.values id name).head? := by
  -- a scope that was just opened binds nothing, and nothing was bound in it earlier
  have opened : ∀ {size : Nat} (earlier : History size) (new : Scope), new.bindings = [] →
      earlier.store.scopes[id]?.bind (·.find? name) = (earlier.values id name).head? →
        (earlier.store.push new).2.scopes[id]?.bind (·.find? name) =
          (earlier.values id name).head? := by
    intro size earlier new isEmpty ih
    simp only [Store.push, Array.getElem?_push, size_scopes_store]
    split
    · next isNew => simp [Scope.find?, isEmpty, earlier.values_eq_nil (Nat.le_of_eq isNew.symm)]
    · exact ih
  induction history with
  | start => rfl
  | openGlobal earlier ih => exact opened earlier _ rfl ih
  | openInside earlier outer ih => exact opened earlier _ rfl ih
  | set earlier scope other value ih =>
      have isOpen : scope.val < earlier.store.scopes.size := by simp
      simp only [store, values, Store.set, Array.getElem?_modify]
      by_cases here : scope.val = id
      · subst here
        rw [Array.getElem?_eq_getElem isOpen] at ih ⊢
        by_cases same : other = name
        · subst same
          simp
        · simpa [same, Scope.find?_bind_of_ne _ value (Ne.symm same)] using ih
      · simpa [here] using ih

/-- The scope exists, and from it one gets to its outer scope, which is older, and on from there. -/
def Linked (history : History size) (id : Nat) : Prop :=
  ∃ scope, history.store.scopes[id]? = some scope ∧ (∀ outer ∈ scope.outer, outer < id) ∧
    history.outward id = id :: scope.outer.elim [] history.outward

/-- Opening a scope changes nothing for the scopes that were there before. -/
theorem Linked.push {earlier : History size} {later : History (size + 1)} {new : Scope}
    (linked : earlier.Linked id) (isOpen : id < size)
    (pushed : later.store = (earlier.store.push new).2)
    (same : ∀ id < size, later.outward id = earlier.outward id) : later.Linked id := by
  rcases linked with ⟨scope, found, older, chain⟩
  refine ⟨scope, ?_, older, ?_⟩
  · rw [pushed]
    exact earlier.store.extends_push new id trivial scope found
  · rw [same id isOpen, chain]
    cases link : scope.outer with
    | none => rfl
    | some outer =>
        have earlier : outer < id := older outer link
        simp [same outer (Nat.lt_trans earlier isOpen)]

theorem getElem?_push_size (history : History size) (new : Scope) :
    (history.store.push new).2.scopes[size]? = some new := by
  simp only [Store.push, Array.getElem?_push, size_scopes_store, if_true]

theorem linked (history : History size) (isOpen : id < size) : history.Linked id := by
  induction history with
  | start => omega
  | @openGlobal size earlier ih =>
      by_cases isNew : id = size
      · subst isNew
        exact ⟨_, earlier.getElem?_push_size _, by simp, by simp [outward]⟩
      · have isOlder : id < size := by omega
        refine (ih isOlder).push isOlder rfl fun id isOlder => ?_
        simp [outward, Nat.ne_of_lt isOlder]
  | @openInside size earlier outer ih =>
      by_cases isNew : id = size
      · subst isNew
        have notNew : outer.val ≠ id := by omega
        exact ⟨_, earlier.getElem?_push_size _, by simp, by simp [outward, notNew]⟩
      · have isOlder : id < size := by omega
        refine (ih isOlder).push isOlder rfl fun id isOlder => ?_
        simp [outward, Nat.ne_of_lt isOlder]
  | set earlier target name value ih =>
      rcases ih isOpen with ⟨scope, found, older, chain⟩
      by_cases here : target.val = id
      · have bound : (earlier.set target name value).store.scopes[id]? =
            some (scope.bind name value) := by
          simp [store, Store.set, Array.getElem?_modify, here, found]
        exact ⟨_, bound, older, chain⟩
      · have unchanged : (earlier.set target name value).store.scopes[id]? = some scope := by
          simpa [store, Store.set, Array.getElem?_modify, here] using found
        exact ⟨_, unchanged, older, chain⟩

/-- A name means what the first scope outward in which it was given a value says. -/
theorem get?_store (history : History size) (isOpen : id < size) (name : String) :
    history.store.get? id name =
      (history.outward id).findSome? fun id => (history.values id name).head? := by
  induction id using Nat.strongRecOn with
  | _ id ih =>
      rcases history.linked isOpen with ⟨scope, found, older, chain⟩
      have bound := history.find?_store id name
      rw [found, Option.bind_some] at bound
      rw [chain, List.findSome?_cons, ← bound]
      cases here : scope.find? name with
      | some value => exact Store.get?_of_bound found here
      | none =>
          cases link : scope.outer with
          | none => exact Store.get?_of_missing found here link
          | some outer =>
              have earlier : outer < id := older outer link
              rw [Store.get?_of_outer found here link earlier]
              exact ih outer earlier (Nat.lt_trans earlier isOpen)

/-- What a name means from a scope is the most recent value that it was given in the first scope
outward in which it was given one, and it means nothing if there is no such scope. So a value given
in an outer scope is seen from all scopes inside in which the name was given none, whenever they
were opened; and giving a value changes neither what other names mean nor what is seen from scopes
that do not lie inside. -/
theorem get?_refines (history : History size) (scope : Fin size) (name : String) :
    (∀ value, history.store.get? scope name = some value ↔
      ∃ inner holder outer, history.outward scope = inner ++ holder :: outer ∧
        (history.values holder name).head? = some value ∧
        ∀ id ∈ inner, history.values id name = []) ∧
    (history.store.get? scope name = none ↔
      ∀ id ∈ history.outward scope, history.values id name = []) ∧
    (∀ (target : Fin size) (value : Value) (inner outer : List ScopeId),
      history.outward scope = inner ++ target.val :: outer →
        (∀ id ∈ inner, history.values id name = []) →
          (history.set target name value).store.get? scope name = some value) ∧
    ∀ (target : Fin size) (other : String) (value : Value),
      other ≠ name ∨ target.val ∉ history.outward scope →
        (history.set target other value).store.get? scope name =
          history.store.get? scope name := by
  refine ⟨?_, ?_, ?_, ?_⟩
  · intro value
    rw [history.get?_store scope.isLt, List.findSome?_eq_some_iff]
    simp only [List.head?_eq_none_iff]
  · rw [history.get?_store scope.isLt, List.findSome?_eq_none_iff]
    simp only [List.head?_eq_none_iff]
  · intro target value inner outer chain unset
    rw [get?_store _ scope.isLt, outward, chain]
    clear chain
    induction inner with
    | nil => simp [values]
    | cons id inner ih =>
        rw [List.forall_mem_cons] at unset
        by_cases here : target.val = id
        · simp [values, here]
        · simpa [values, here, unset.1] using ih unset.2
  · intro target other value unaffected
    rw [get?_store _ scope.isLt, history.get?_store scope.isLt, outward]
    rcases unaffected with distinct | elsewhere
    · simp [values, distinct]
    · generalize history.outward scope = chain at elsewhere
      induction chain with
      | nil => rfl
      | cons id chain ih =>
          rw [List.mem_cons, not_or] at elsewhere
          have same : (history.set target other value).values id name = history.values id name := by
            simp [values, elsewhere.1]
          rw [List.findSome?_cons, List.findSome?_cons, same, ih elsewhere.2]

/-- A name that is bound globally after two scopes were opened inside each other, with the inner one
shadowing another name. Both see the name, and what is shadowed stays so. -/
theorem get?_refines_late :
    let history : History 3 := .set (.openInside (.openInside (.set (.openGlobal .start) 0 "shadowed"
      (.int 1)) 0) 1) 2 "shadowed" (.int 2)
    history.outward 2 = [2, 1] ++ 0 :: [] ∧
      (history.set 0 "late" .null).store.get? 2 "late" = some .null ∧
      (history.set 0 "shadowed" .null).store.get? 2 "shadowed" = some (.int 2) ∧
      (history.set 0 "shadowed" .null).store.get? 1 "shadowed" = some .null := by
  intro history
  have chain : history.outward 2 = [2, 1] ++ 0 :: [] := by decide
  rcases history.get?_refines 2 "late" with ⟨_, _, seen, _⟩
  rcases (history.set 0 "shadowed" .null).get?_refines 2 "shadowed" with ⟨found, _, _, _⟩
  rcases history.get?_refines 1 "shadowed" with ⟨_, _, seenOutside, _⟩
  refine ⟨chain, ?_, ?_, ?_⟩
  · exact seen 0 .null [2, 1] [] chain (by decide)
  · exact (found (.int 2)).2 ⟨[], 2, [1, 0], by decide, by decide, by decide⟩
  · exact seenOutside 0 .null [1] [] (by decide) (by decide)

end History

end Scriptlet
