import Scriptlet.Proofs.Eval.Relating

/-!
# What an evaluation leaves as it was

An expression changes no scope that was there before; it only opens new ones, whatever it ends with.
Among statements only a `let` changes a scope, namely the one that it is evaluated in, and there it
changes the one name that it binds.

Both follow from one invariant. Scopes that exist can be kept as they are by any evaluation except
for a `let` in one of them, and a scope that a block or a call opens is none of those.
-/

namespace Scriptlet

namespace Store

/-- The scopes in `kept` have the same bindings and the same outer scope after as before. -/
def Keeps (kept : ScopeId → Prop) (before after : Store) : Prop :=
  ∀ id, kept id → ∀ scope, before.scopes[id]? = some scope → after.scopes[id]? = some scope

/-- All scopes are as they were, and there may be new ones behind them. -/
def Extends (before after : Store) : Prop :=
  before.Keeps (fun _ => True) after

/-- The name has got the value in this scope, and nothing else is changed: the other names of the
scope mean what they meant, it lies where it lay, and all other scopes are as they were. -/
structure Binds (scope : ScopeId) (name : String) (value : Value) (before after : Store) :
    Prop where
  elsewhere : before.Keeps (· ≠ scope) after
  here : ∀ found, before.scopes[scope]? = some found →
    ∃ bound, after.scopes[scope]? = some bound ∧ bound.outer = found.outer ∧
      bound.find? name = some value ∧ ∀ other, other ≠ name → bound.find? other = found.find? other

variable {kept : ScopeId → Prop} {before middle after : Store}

theorem Keeps.refl (store : Store) : store.Keeps kept store :=
  fun _ _ _ found => found

theorem Keeps.trans (first : before.Keeps kept middle) (second : middle.Keeps kept after) :
    before.Keeps kept after :=
  fun id isKept scope found => second id isKept scope (first id isKept scope found)

theorem Extends.keeps (extended : before.Extends after) : before.Keeps kept after :=
  fun id _ => extended id trivial

theorem extends_push (store : Store) (scope : Scope) : store.Extends (store.push scope).2 := by
  intro id _ old found
  have inside : id < store.scopes.size := (Array.getElem?_eq_some_iff.1 found).1
  simpa [Store.push, Array.getElem?_push, Nat.ne_of_lt inside] using found

theorem keeps_set (store : Store) (scope : ScopeId) (name : String) (value : Value) :
    store.Keeps (· ≠ scope) (store.set scope name value) := by
  intro id other old found
  simpa [Store.set, Array.getElem?_modify, Ne.symm other] using found

/-- A name that is bound after scopes have been opened is bound in the scope as it was. -/
theorem Extends.binds_set (extended : before.Extends after) (scope : ScopeId) (name : String)
    (value : Value) : before.Binds scope name value (after.set scope name value) := by
  refine ⟨extended.keeps.trans (after.keeps_set scope name value), ?_⟩
  intro found isFound
  have isThere := extended scope trivial found isFound
  refine ⟨found.bind name value, ?_, rfl, found.find?_bind_self name value, ?_⟩
  · simp [Store.set, Array.getElem?_modify, isThere]
  · exact fun other distinct => found.find?_bind_of_ne value distinct

end Store

/-- Certain scopes that exist are kept, as long as no `let` is evaluated in one of them. -/
def Eval.keeping (kept : ScopeId → Prop) : Eval.interpreter.Invariant where
  Grows := Store.Keeps kept
  Fits store := ∀ id, kept id → id < store.scopes.size
  Holds _ _ := True
  Stands _ node scope := ∀ token name value, node = .stmt (.letBind token name value) → ¬kept scope

theorem Eval.lawful_keeping (kept : ScopeId → Prop) : (Eval.keeping kept).Lawful := by
  have opens {store : Store} {new : Scope} {block : Block}
      (fits : ∀ id, kept id → id < store.scopes.size) :
      (Eval.keeping kept).Opens store (store.push new) block := by
    refine ⟨(store.extends_push new).keeps, ?_, ?_⟩
    · intro id isKept
      simpa [Store.push] using Nat.lt_succ_of_lt (fits id isKept)
    · intro _ _ _ _ _ _ isKept
      exact absurd (fits _ isKept) (Nat.lt_irrefl _)
  constructor
  case refl => exact Store.Keeps.refl
  case trans => exact Store.Keeps.trans
  case stands_mono => exact fun stands _ => stands
  case child =>
    rintro _ node _ _ noBlock inner isChild token name value rfl
    exact absurd isChild (Node.stmt_not_mem_children noBlock _)
  case visit => exact fun fits _ => ⟨.refl _, fits, fun _ _ => trivial⟩
  case leave => exact fun fits _ _ => ⟨.refl _, fits⟩
  case create => exact fun fits _ => ⟨.refl _, fits, trivial⟩
  case bindName =>
    intro store token name expr scope value fits stands _
    constructor
    · intro id isKept
      apply store.keeps_set scope name.name value id
      rintro rfl
      exact stands token name expr rfl isKept
    · intro id isKept
      simpa [Eval.interpreter, Store.set] using fits id isKept
  case openInside => exact fun fits _ => opens fits
  case openCall => exact fun fits _ _ _ => opens fits
  all_goals intros; trivial

section Frame

variable (room : Nat) (scope : ScopeId) (store : Store)

theorem Store.extends_of_keeps {before after : Store}
    (keeps : before.Keeps (· < before.scopes.size) after) : before.Extends after :=
  fun id _ scope found => keeps id (Array.getElem?_eq_some_iff.1 found).1 scope found

theorem Expr.extends_eval (expr : Expr) :
    store.Extends (expr.eval (Closure.enter room) scope store).2 := by
  have lawful := Eval.lawful_keeping (· < store.scopes.size)
  refine Store.extends_of_keeps (expr.kept_eval lawful room (fun _ => id) ?_).grows
  rintro _ _ _ ⟨⟩

theorem Stmt.extends_eval {stmt : Stmt}
    (noLet : ∀ token name value, stmt ≠ .letBind token name value) :
    store.Extends (stmt.eval (Closure.enter room) scope store).2 := by
  have lawful := Eval.lawful_keeping (· < store.scopes.size)
  refine Store.extends_of_keeps (stmt.kept_eval lawful room (fun _ => id) ?_).grows
  intro token name value isLet
  exact absurd (Node.stmt.inj isLet) (noLet token name value)

/-- The name and the value that a statement binds in its own scope: a `let` whose value is there
binds it, and no other statement binds anything. -/
def Stmt.binding? (enter : Enter) (scope : ScopeId) (store : Store) :
    Stmt → Option (String × Value)
  | .letBind _ name value =>
      match (value.eval enter scope store).1 with
      | .ok value => some (name.name, value)
      | .error _ => none
  | .ret _ _ | .expr _ _ | .block _ => none

/-- What a statement does to the scopes that are there. -/
theorem Stmt.changes_eval (stmt : Stmt) :
    (∀ name value, stmt.binding? (Closure.enter room) scope store = some (name, value) →
      store.Binds scope name value (stmt.eval (Closure.enter room) scope store).2) ∧
    (stmt.binding? (Closure.enter room) scope store = none →
      store.Extends (stmt.eval (Closure.enter room) scope store).2) := by
  cases stmt with
  | letBind token name value =>
      have extended := value.extends_eval room scope store
      rcases done : value.eval (Closure.enter room) scope store with ⟨interrupt | result, after⟩
      · rw [done] at extended
        rw [Stmt.eval, Eval.bind_of_error done]
        exact ⟨by simp [Stmt.binding?, done], fun _ => extended⟩
      · rw [done] at extended
        rw [Stmt.eval, Eval.bind_of_ok done]
        refine ⟨?_, by simp [Stmt.binding?, done]⟩
        intro bound given isBound
        simp only [Stmt.binding?, done, Option.some.injEq, Prod.mk.injEq] at isBound
        rcases isBound with ⟨rfl, rfl⟩
        exact extended.binds_set scope name.name result
  | ret | expr | block =>
      refine ⟨by simp [Stmt.binding?], fun _ => Stmt.extends_eval room scope store ?_⟩
      simp

end Frame

/-- An expression leaves every scope as it was, whatever it ends with. A statement does so too,
unless it is a `let` whose value is there. Then its name means this value in the scope of the
statement, and nothing else is changed. -/
theorem eval_extends_store (room : Nat) (scope : ScopeId) (store : Store) :
    (∀ expr : Expr, store.Extends (expr.eval (Closure.enter room) scope store).2) ∧
      ∀ stmt : Stmt,
        (∀ name value, stmt.binding? (Closure.enter room) scope store = some (name, value) →
          store.Binds scope name value (stmt.eval (Closure.enter room) scope store).2) ∧
        (stmt.binding? (Closure.enter room) scope store = none →
          store.Extends (stmt.eval (Closure.enter room) scope store).2) :=
  ⟨Expr.extends_eval room scope store, Stmt.changes_eval room scope store⟩

end Scriptlet
