import Scriptlet.Proofs.Eval.Derivations
import Scriptlet.Proofs.Eval.Steps

/-!
# The graph of scopes

Scopes refer to each other in two ways. A scope lies inside its outer one, and a function that is
bound in a scope keeps the scope that it was created in. Along both together one may go around in
circles: a function that is bound where it was created is enough for that.

The outer scopes alone never lead back. They are older, and only the global scope lies in no other,
so going outward ends there. A search for a name goes outward and nowhere else, which is why it
ends, whatever functions it finds on its way.
-/

namespace Scriptlet

/-- The scope that a function was created in. -/
def Value.captured? : Value → Option ScopeId
  | .function closure => some closure.scope
  | .int _ | .bool _ | .null => none

theorem Value.within_iff {size : Nat} {value : Value} :
    value.Within size ↔ ∀ captured ∈ value.captured?, captured < size := by
  cases value with
  | function closure => simp [Within, captured?]
  | int | bool | null => simp [Within, captured?]

namespace Store

/-- Going outward from a scope ends at `root`, which lies in no other scope. -/
inductive EndsAt (store : Store) (root : ScopeId) : ScopeId → Prop
  | here {scope : Scope} (found : store.scopes[root]? = some scope)
      (isGlobal : scope.outer = none) :
      EndsAt store root root
  | outward {id outer : ScopeId} {scope : Scope} (found : store.scopes[id]? = some scope)
      (isInside : scope.outer = some outer) (rest : EndsAt store root outer) : EndsAt store root id

/-- The scopes that something in `root` refers to, directly or through other scopes. -/
inductive Reaches (store : Store) (root : ScopeId) : ScopeId → Prop
  | here : Reaches store root root
  | outer {id outer : ScopeId} {scope : Scope} (reached : Reaches store root id)
      (found : store.scopes[id]? = some scope) (isInside : scope.outer = some outer) :
      Reaches store root outer
  | captured {id captured : ScopeId} {scope : Scope} {name : String} {value : Value}
      (reached : Reaches store root id) (found : store.scopes[id]? = some scope)
      (bound : (name, value) ∈ scope.bindings) (captures : value.captured? = some captured) :
      Reaches store root captured

/-- Every scope but `root` lies inside another one. -/
def SingleRoot (root : ScopeId) (store : Store) : Prop :=
  ∀ (id : ScopeId) (scope : Scope), store.scopes[id]? = some scope → scope.outer = none → id = root

variable {store after : Store} {root id : ScopeId}

theorem Step.singleRoot (step : store.Step after) (single : store.SingleRoot root) :
    after.SingleRoot root := by
  intro id scope found isGlobal
  cases step with
  | push isInside =>
      rcases getElem?_push_eq_some found with older | ⟨_, rfl⟩
      · exact single id scope older isGlobal
      · rw [isInside] at isGlobal
        cases isGlobal
  | set =>
      rcases getElem?_set_eq_some found with ⟨old, oldFound, rfl | rfl⟩
      · exact single id scope oldFound isGlobal
      · exact single id old oldFound isGlobal
  | newFunction => exact single id scope found isGlobal

/-- Outer scopes are older, so going outward comes to the only scope that lies in no other. -/
theorem Intact.endsAt (intact : store.Intact) (single : store.SingleRoot root)
    (isOpen : id < store.scopes.size) : store.EndsAt root id := by
  induction id using Nat.strongRecOn with
  | _ id ih =>
      have found := Array.getElem?_eq_getElem isOpen
      cases link : store.scopes[id].outer with
      | none =>
          obtain rfl := single id _ found link
          exact .here found link
      | some outer =>
          have older : outer < id := intact.outer found outer link
          exact .outward found link (ih outer older (Nat.lt_trans older isOpen))

theorem Intact.lt_of_reaches (intact : store.Intact) (isOpen : root < store.scopes.size)
    (reached : store.Reaches root id) : id < store.scopes.size := by
  induction reached with
  | here => exact isOpen
  | outer _ found isInside ih => exact Nat.lt_trans (intact.outer found _ isInside) ih
  | captured _ found bound captures _ =>
      exact Value.within_iff.1 (intact.bindings found _ bound) _ captures

end Store

namespace Session

/-- The session evaluates some tree to a value, and this is what it is afterwards. -/
inductive Returns (session : Session) (value : Value) (after : Session) : Prop
  | program {program : Program} (done : session.evalProgram program = (.ok value, after))
  | stmt {stmt : Stmt} (done : session.evalStmt stmt = (.ok value, after))
  | expr {expr : Expr} (done : session.evalExpr expr = (.ok value, after))

variable {session after : Session} {value : Value}

theorem Reachable.singleRoot (reachable : session.Reachable) :
    session.store.SingleRoot session.globals := by
  -- what every step keeps is kept by all that a session evaluates
  have kept : ∀ {evaluation : Eval Value} {session : Session},
      session.store.Steps (evaluation session.store).2 →
        session.store.SingleRoot session.globals →
          (evaluation.settle session.store).2.SingleRoot session.globals := by
    intro evaluation session steps single
    rw [Eval.settle_snd]
    exact steps.kept Store.Step.singleRoot single
  induction reachable with
  | new =>
      intro id scope found _
      rcases Store.getElem?_push_eq_some found with older | ⟨rfl, _⟩
      · simp [Store.empty] at older
      · rfl
  | program _ program ih =>
      exact kept (kept_evalStmts Eval.lawful_stepwise callLimit program.statements trivial
        (fun _ _ => trivial) trivial).grows ih
  | stmt _ stmt ih =>
      exact kept (stmt.kept_eval Eval.lawful_stepwise callLimit trivial trivial).grows ih
  | expr _ expr ih =>
      exact kept (expr.kept_eval Eval.lawful_stepwise callLimit trivial trivial).grows ih

/-- What an evaluation is settled with is a value that the store can hold. -/
theorem within_settle {evaluation : Eval Value}
    (kept : Eval.integrity.Kept session.store Eval.integrity.Holds (evaluation session.store))
    (done : (evaluation.settle session.store).1 = .ok value) :
    value.Within (evaluation.settle session.store).2.scopes.size := by
  rw [Eval.settle_snd]
  rw [Eval.settle] at done
  rcases ended : evaluation session.store with ⟨(returned | fault) | result, last⟩ <;>
    rw [ended] at kept done
  · cases done
    rcases kept.stopped rfl with ⟨_, ⟨⟩, within⟩ | ⟨_, ⟨⟩, _⟩
    exact within
  · cases done
  · cases done
    exact kept.ok rfl

theorem Reachable.within_of_returns (reachable : session.Reachable)
    (returns : session.Returns value after) : value.Within after.store.scopes.size := by
  have intact := reachable.intact
  cases returns with
  | @program program done =>
      have ended : (session.evalProgram program).2 = after := congrArg Prod.snd done
      rw [← ended]
      exact within_settle (intact.kept_evalProgram program) (congrArg Prod.fst done)
  | @stmt stmt done =>
      have ended : (session.evalStmt stmt).2 = after := congrArg Prod.snd done
      rw [← ended]
      exact within_settle (intact.kept_evalStmt stmt) (congrArg Prod.fst done)
  | @expr expr done =>
      have ended : (session.evalExpr expr).2 = after := congrArg Prod.snd done
      rw [← ended]
      exact within_settle (intact.kept_evalExpr expr) (congrArg Prod.fst done)

/-- Whatever was evaluated before, outer scopes are older than the scopes in them. Going outward
from any scope ends at the global one, in particular from those that the global scope refers to.
Functions were created in scopes that exist, those that are bound somewhere and those that are
returned. So a search for a name ends, although nothing but the links between scopes bounds it. -/
theorem Reachable.scopes_wellFounded (reachable : session.Reachable) :
    (∀ (id outer : ScopeId) (scope : Scope), session.store.scopes[id]? = some scope →
      scope.outer = some outer → outer < id) ∧
    (∀ id < session.store.scopes.size, session.store.EndsAt session.globals id) ∧
    (∀ id, session.store.Reaches session.globals id →
      session.store.EndsAt session.globals id) ∧
    (∀ (id : ScopeId) (scope : Scope), session.store.scopes[id]? = some scope →
      ∀ binding ∈ scope.bindings, ∀ captured ∈ binding.2.captured?,
        captured < session.store.scopes.size) ∧
    (∀ value after, session.Returns value after → ∀ captured ∈ value.captured?,
      captured < after.store.scopes.size) ∧
    ∀ id < session.store.scopes.size, ∀ name found,
      LooksUp session.store name id found ↔ session.store.get? id name = found := by
  have single := reachable.singleRoot
  rcases reachable.intact with ⟨intact, isOpen⟩
  refine ⟨?_, ?_, ?_, ?_, ?_, ?_⟩
  · intro id outer scope found isInside
    exact intact.outer found outer isInside
  · intro id isOpen
    exact intact.endsAt single isOpen
  · intro id reached
    exact intact.endsAt single (intact.lt_of_reaches isOpen reached)
  · intro id scope found binding binding_mem
    exact Value.within_iff.1 (intact.bindings found binding binding_mem)
  · intro value after returns
    exact Value.within_iff.1 (reachable.within_of_returns returns)
  · intro id isOpen name found
    constructor
    · exact intact.get?_of_looksUp
    · rintro rfl
      exact intact.looksUp_get? name isOpen

/-- A function that is bound in the scope it was created in: the scope of a call, which lies inside
the global one and which the global scope refers to through the value of the call. -/
theorem scopes_wellFounded_circular :
    let session := (Session.new.evalProgram (Program.read
      "let make = fn() \x7b let again = fn() \x7b again \x7d; again \x7d; let kept = make();").1).2
    session.Reachable ∧
      (∃ scope value, session.store.scopes[1]? = some scope ∧ ("again", value) ∈ scope.bindings ∧
        value.captured? = some 1) ∧
      session.store.Reaches session.globals 1 ∧ session.store.EndsAt session.globals 1 ∧
      ∃ found, LooksUp session.store "missing" 1 found := by
  intro session
  have reachable : session.Reachable := .program .new _
  have bound : ∀ (id : ScopeId) (name : String),
      (session.store.scopes[id]?.bind (·.find? name)).bind Value.captured? =
      some 1 → ∃ scope value, session.store.scopes[id]? = some scope ∧
        (name, value) ∈ scope.bindings ∧ value.captured? = some 1 := by
    intro id name captures
    rcases Option.bind_eq_some_iff.1 captures with ⟨value, found, captures⟩
    rcases Option.bind_eq_some_iff.1 found with ⟨scope, isScope, found⟩
    exact ⟨scope, value, isScope, Scope.mem_of_find? found, captures⟩
  rcases bound session.globals "kept" (by decide +kernel) with ⟨_, _, found, kept, captures⟩
  have reached : session.store.Reaches session.globals 1 := .captured .here found kept captures
  rcases reachable.scopes_wellFounded with ⟨_, _, ends, _, _, searches⟩
  exact ⟨reachable, bound 1 "again" (by decide +kernel), reached, ends 1 reached, _,
    (searches 1 (by decide +kernel) "missing" _).2 rfl⟩

end Session

end Scriptlet
