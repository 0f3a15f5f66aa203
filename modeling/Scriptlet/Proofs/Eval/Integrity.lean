import Scriptlet.Proofs.Eval.Relating
import Scriptlet.Session

/-!
# Stores stay intact

In the stores that evaluations work on, a scope lies inside an older one and a function was created
in a scope that exists. Both are needed to look names up: a search that goes outward then reaches
older and older scopes, and it ends.

That evaluations keep a store intact, and only return values that the store can hold, is the
invariant `Eval.integrity`.
-/

namespace Scriptlet

/-- A function of this value was created in one of the first `size` scopes. -/
def Value.Within (size : Nat) : Value → Prop
  | .function closure => closure.scope < size
  | .int _ | .bool _ | .null => True

theorem Value.Within.mono {size larger : Nat} {value : Value} (within : value.Within size)
    (le : size ≤ larger) : value.Within larger := by
  cases value with
  | function closure => exact Nat.lt_of_lt_of_le within le
  | int | bool | null => trivial

theorem Value.Within.of_plain {size : Nat} {value : Value} (plain : value.Plain) :
    value.Within size := by
  cases value with
  | function closure => exact absurd plain id
  | int | bool | null => trivial

/-- Outer scopes are older, and functions were created in scopes that exist. -/
structure Store.Intact (store : Store) : Prop where
  outer : ∀ {id : ScopeId} {scope : Scope}, store.scopes[id]? = some scope →
    ∀ outer ∈ scope.outer, outer < id
  bindings : ∀ {id : ScopeId} {scope : Scope}, store.scopes[id]? = some scope →
    ∀ binding ∈ scope.bindings, binding.2.Within store.scopes.size

namespace Scope

variable {scope : Scope} {holds : String × Value → Prop}

theorem forall_bind {name : String} {value : Value} (old : ∀ binding ∈ scope.bindings, holds binding)
    (new : holds (name, value)) : ∀ binding ∈ (scope.bind name value).bindings, holds binding := by
  intro binding binding_mem
  simp only [Scope.bind, List.mem_cons, List.mem_filter] at binding_mem
  rcases binding_mem with rfl | ⟨binding_mem, _⟩
  · exact new
  · exact old binding binding_mem

theorem forall_bindAll {added : List (String × Value)}
    (old : ∀ binding ∈ scope.bindings, holds binding) (new : ∀ binding ∈ added, holds binding) :
    ∀ binding ∈ (scope.bindAll added).bindings, holds binding := by
  induction added generalizing scope with
  | nil => exact old
  | cons first added ih =>
      rw [List.forall_mem_cons] at new
      exact ih (forall_bind old new.1) new.2

theorem mem_of_find? {name : String} {value : Value}
    (found : scope.find? name = some value) : (name, value) ∈ scope.bindings := by
  rcases List.lookup_eq_some_iff.1 found with ⟨before, after, split, _⟩
  simp [split]

theorem outer_bindAll (scope : Scope) (added : List (String × Value)) :
    (scope.bindAll added).outer = scope.outer := by
  induction added generalizing scope with
  | nil => rfl
  | cons first added ih => exact ih (scope.bind first.1 first.2)

end Scope

namespace Store

variable {store : Store}

theorem getElem?_push_eq_some {scope new : Scope} {id : ScopeId}
    (found : (store.push new).2.scopes[id]? = some scope) :
    store.scopes[id]? = some scope ∨ id = store.scopes.size ∧ scope = new := by
  simp only [Store.push, Array.getElem?_push] at found
  split at found
  · next atEnd => exact .inr ⟨atEnd, (Option.some.inj found).symm⟩
  · exact .inl found

theorem Intact.push (intact : store.Intact) {new : Scope}
    (outer : ∀ outer ∈ new.outer, outer < store.scopes.size)
    (bindings : ∀ binding ∈ new.bindings, binding.2.Within store.scopes.size) :
    (store.push new).2.Intact := by
  have larger : store.scopes.size ≤ (store.push new).2.scopes.size := by simp [Store.push]
  constructor
  · intro id scope found
    rcases getElem?_push_eq_some found with older | ⟨rfl, rfl⟩
    · exact intact.outer older
    · exact outer
  · intro id scope found binding binding_mem
    rcases getElem?_push_eq_some found with older | ⟨rfl, rfl⟩
    · exact (intact.bindings older binding binding_mem).mono larger
    · exact (bindings binding binding_mem).mono larger

theorem Intact.openInside (intact : store.Intact) {scope : ScopeId}
    (isOpen : scope < store.scopes.size) : (store.openInside scope).2.Intact :=
  intact.push (by simpa using isOpen) (by simp)

theorem Intact.openCall (intact : store.Intact) {closure : Closure} {args : List Value}
    (isOpen : closure.scope < store.scopes.size)
    (argsWithin : ∀ arg ∈ args, arg.Within store.scopes.size) :
    (store.openCall closure args).2.Intact := by
  refine intact.push ?_ ?_
  · simpa [Scope.outer_bindAll] using isOpen
  · refine Scope.forall_bindAll (by simp) fun binding binding_mem => ?_
    exact argsWithin _ (List.of_mem_zip binding_mem).2

/-- A scope after a name was bound is an old one, or an old one with the name bound. -/
theorem getElem?_set_eq_some {id other : ScopeId} {name : String} {value : Value} {scope : Scope}
    (found : (store.set id name value).scopes[other]? = some scope) :
    ∃ old, store.scopes[other]? = some old ∧ (scope = old ∨ scope = old.bind name value) := by
  simp only [Store.set, Array.getElem?_modify] at found
  split at found
  · rcases Option.map_eq_some_iff.1 found with ⟨old, oldFound, rfl⟩
    exact ⟨old, oldFound, .inr rfl⟩
  · exact ⟨scope, found, .inl rfl⟩

theorem Intact.set (intact : store.Intact) {value : Value}
    (within : value.Within store.scopes.size) (id : ScopeId) (name : String) :
    (store.set id name value).Intact := by
  have size_eq : (store.set id name value).scopes.size = store.scopes.size := by simp [Store.set]
  constructor
  · intro other scope found outer outer_mem
    rcases getElem?_set_eq_some found with ⟨old, oldFound, rfl | rfl⟩
    · exact intact.outer oldFound outer outer_mem
    · exact intact.outer oldFound outer outer_mem
  · intro other scope found
    rw [size_eq]
    rcases getElem?_set_eq_some found with ⟨old, oldFound, rfl | rfl⟩
    · exact intact.bindings oldFound
    · exact Scope.forall_bind (intact.bindings oldFound) within

/-- A name that has a value is bound to it in some scope. -/
theorem exists_binding_of_get? {id : ScopeId} {name : String} {value : Value}
    (found : store.get? id name = some value) :
    ∃ (other : ScopeId) (scope : Scope), store.scopes[other]? = some scope ∧
      (name, value) ∈ scope.bindings := by
  induction id using Nat.strongRecOn with
  | _ id ih =>
      rw [Store.get?] at found
      split at found
      · cases found
      · next scope isScope =>
          split at found
          · next bound =>
              cases found
              exact ⟨id, scope, isScope, Scope.mem_of_find? bound⟩
          · split at found
            · cases found
            · next outer _ =>
                split at found
                · next older => exact ih outer older found
                · cases found

theorem Intact.within_get? (intact : store.Intact) {id : ScopeId} {name : String} {value : Value}
    (found : store.get? id name = some value) : value.Within store.scopes.size := by
  rcases exists_binding_of_get? found with ⟨other, scope, isScope, bound⟩
  exact intact.bindings isScope _ bound

end Store

/-- The scopes that trees are evaluated in exist, and what they come to was created in such ones. -/
def Eval.integrity : Eval.interpreter.Invariant where
  Grows before after := before.scopes.size ≤ after.scopes.size
  Fits := Store.Intact
  Holds store value := value.Within store.scopes.size
  Stands store _ scope := scope < store.scopes.size

theorem Eval.lawful_integrity : Eval.integrity.Lawful := by
  have opens {store : Store} {new : Scope} {block : Block} (intact : (store.push new).2.Intact) :
      Eval.integrity.Opens store (store.push new) block := by
    refine ⟨?_, intact, ?_⟩
    · simp [Eval.integrity, Store.push]
    · simp [Eval.integrity, Store.push]
  constructor
  case refl => exact fun _ => Nat.le_refl _
  case trans => exact Nat.le_trans
  case holds_mono => exact fun within larger => within.mono larger
  case stands_mono => exact fun isOpen larger => Nat.lt_of_lt_of_le isOpen larger
  case mayFail_mono => exact fun _ _ => trivial
  case plain => exact fun _ _ isPlain => .of_plain isPlain
  case child => exact fun isOpen _ _ _ => isOpen
  case visit => exact fun intact _ => ⟨Nat.le_refl _, intact, fun _ _ => trivial⟩
  case leave => exact fun intact _ _ => ⟨Nat.le_refl _, intact⟩
  case lookup => exact fun intact found => intact.within_get? found
  case create => exact fun intact isOpen => ⟨Nat.le_refl _, ⟨intact.outer, intact.bindings⟩, isOpen⟩
  case bindName =>
    intro store token name expr scope value intact _ within
    exact ⟨by simp [Eval.integrity, Eval.interpreter, Store.set], intact.set within scope name.name⟩
  case openInside => exact fun intact isOpen => opens (intact.openInside isOpen)
  case openCall =>
    intro store value closure args intact within isFunction argsWithin
    cases isFunction
    exact opens (intact.openCall within argsWithin)

theorem Eval.settle_snd (evaluation : Eval Value) (store : Store) :
    (evaluation.settle store).2 = (evaluation store).2 := by
  rw [Eval.settle]
  split <;> simp_all

namespace Session

/-- The sessions that evaluations of any trees lead to, whether they succeed or not. -/
inductive Reachable : Session → Prop
  | new : Reachable .new
  | program {session : Session} (before : Reachable session) (program : Program) :
      Reachable (session.evalProgram program).2
  | stmt {session : Session} (before : Reachable session) (stmt : Stmt) :
      Reachable (session.evalStmt stmt).2
  | expr {session : Session} (before : Reachable session) (expr : Expr) :
      Reachable (session.evalExpr expr).2

/-- The store is intact, and the global scope is in it. -/
structure Intact (session : Session) : Prop where
  store : session.store.Intact
  globals : session.globals < session.store.scopes.size

theorem intact_new : Session.new.Intact := by
  have empty : Store.empty.Intact := ⟨by simp [Store.empty], by simp [Store.empty]⟩
  exact ⟨empty.push (by simp) (by simp), by decide⟩

theorem Intact.settle {session : Session} (intact : session.Intact) {evaluation : Eval Value}
    (kept : Eval.integrity.Kept session.store Eval.integrity.Holds (evaluation session.store)) :
    Intact ⟨session.globals, (evaluation.settle session.store).2⟩ := by
  rw [Eval.settle_snd]
  exact ⟨kept.fits, Nat.lt_of_lt_of_le intact.globals kept.grows⟩

theorem Intact.kept_evalProgram {session : Session} (intact : session.Intact) (program : Program) :
    Eval.integrity.Kept session.store Eval.integrity.Holds
      (evalStmts (Closure.enter callLimit) session.globals .null program.statements session.store) :=
  kept_evalStmts Eval.lawful_integrity callLimit program.statements intact.store
    (fun _ _ => intact.globals) trivial

theorem Intact.kept_evalStmt {session : Session} (intact : session.Intact) (stmt : Stmt) :
    Eval.integrity.Kept session.store Eval.integrity.Holds
      (stmt.eval (Closure.enter callLimit) session.globals session.store) :=
  stmt.kept_eval Eval.lawful_integrity callLimit intact.store intact.globals

theorem Intact.kept_evalExpr {session : Session} (intact : session.Intact) (expr : Expr) :
    Eval.integrity.Kept session.store Eval.integrity.Holds
      (expr.eval (Closure.enter callLimit) session.globals session.store) :=
  expr.kept_eval Eval.lawful_integrity callLimit intact.store intact.globals

theorem Reachable.intact {session : Session} (reachable : session.Reachable) : session.Intact := by
  induction reachable with
  | new => exact intact_new
  | program _ program ih => exact ih.settle (ih.kept_evalProgram program)
  | stmt _ stmt ih => exact ih.settle (ih.kept_evalStmt stmt)
  | expr _ expr ih => exact ih.settle (ih.kept_evalExpr expr)

end Session

end Scriptlet
