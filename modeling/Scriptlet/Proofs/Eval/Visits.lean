import Scriptlet.Proofs.Eval.Relating

/-!
# Evaluation that is watched

Evaluation does not know where the trees come from that it evaluates. To say something about the
places of nodes it is watched: beside the store it then keeps a list of visits, one for each
statement and each expression that is evaluated, with the place of the node and the scope and the
store it is evaluated in. A function is called far from where it was created, so the place of its
literal is kept as well, under the number of the function.

Watching changes nothing else: a watched evaluation has the result of the evaluation and leaves the
same store.
-/

namespace Scriptlet

/-- The evaluation of one statement or expression. -/
structure Visit where
  node : Node
  /-- The nodes around it, the nearest one first. -/
  around : List Node
  scope : ScopeId
  /-- The store at the moment the evaluation of the node begins. -/
  store : Store

/-- A store, and what was seen of the evaluations that led to it. -/
structure Watch where
  store : Store
  /-- For each function the literal it was created from, with the nodes around the literal. -/
  origins : Array (List Node) := #[]
  /-- All visits, the last one first. -/
  visits : List Visit := []

namespace Watch

/-- Notes that the evaluation of a node begins. -/
def visit (node : Node) (around : List Node) (scope : ScopeId) (watch : Watch) : Watch :=
  { watch with visits := ⟨node, around, scope, watch.store⟩ :: watch.visits }

/-- Creates a function and notes where its literal stands. -/
def newFunction (origin : List Node) (params : List Ident) (body : Block) (scope : ScopeId)
    (watch : Watch) : Value × Watch :=
  let (value, store) := watch.store.newFunction params body scope
  (value, { watch with store, origins := watch.origins.push origin })

/-- Where the literal of a function stands. -/
def originOf (watch : Watch) (closure : Closure) : List Node :=
  watch.origins[closure.id]?.getD []

end Watch

/-- The interpreter that watches. Beside the scope it knows the nodes around a tree. What is around
the body of a function is not what is around the call but the literal of the function, with all that
is around the literal. -/
def Watch.interpreter : Interpreter Watch Interrupt Value (ScopeId × List Node) where
  value := id
  plain := id
  below node place := (place.1, node :: place.2)
  visit node place watch := watch.visit node place.2 place.1
  leave _ _ watch := watch
  lookup place name watch := watch.store.get? place.1 name
  newFunction place params body watch := watch.newFunction place.2 params body place.1
  bindName place name value watch := { watch with store := watch.store.set place.1 name value }
  openInside place watch :=
    let opened := watch.store.openInside place.1
    ((opened.1, place.2), { watch with store := opened.2 })
  openCall closure args watch :=
    let opened := watch.store.openCall closure args
    ((opened.1, .block closure.body :: watch.originOf closure), { watch with store := opened.2 })
  returned := .returned
  failed := .failed
  returned? := Eval.interpreter.returned?
  returned?_returned := Eval.interpreter.returned?_returned
  returned?_failed := Eval.interpreter.returned?_failed

/-! ## Watching changes nothing else -/

/-- A watched evaluation does what the evaluation does, to the same store. -/
def Watch.tracking : Watch.interpreter.Relation Eval.interpreter where
  Grows _ _ := True
  Fits watch store := watch.store = store
  Like _ := Eq
  Stands _ _ place scope := place.1 = scope

theorem Watch.lawful_tracking : Watch.tracking.Lawful := by
  constructor
  case like_mono => exact fun same _ => same
  case stands_mono => exact fun same _ => same
  case plain => exact fun _ _ _ => rfl
  case resembles =>
    rintro _ value _ rfl
    exact .refl value
  case child => exact fun same _ _ _ => same
  case visit => exact fun same _ => ⟨trivial, same, fun _ _ => trivial⟩
  case leave => exact fun same _ _ => ⟨trivial, same⟩
  case lookup =>
    rintro watch _ ident place _ rfl rfl
    simp only [Watch.interpreter, Eval.interpreter]
    cases watch.store.get? place.1 ident.name with
    | none => exact .none
    | some value => exact .some rfl
  case create =>
    rintro watch _ token params body place _ rfl rfl
    exact ⟨trivial, rfl, rfl⟩
  case bindName =>
    rintro watch _ token name expr place _ value _ rfl rfl rfl
    exact ⟨trivial, rfl⟩
  case openInside =>
    rintro watch _ block place _ rfl rfl
    exact ⟨trivial, rfl, fun _ _ => rfl⟩
  case openCall =>
    rintro watch _ value _ closure closure' args args' rfl rfl isValue isValue' same
    cases isValue.symm.trans isValue'
    cases List.forall₂_eq_eq_eq ▸ same
    exact ⟨trivial, rfl, fun _ _ => rfl⟩
  all_goals intros; trivial

/-- Watched statements have the result of their evaluation, and leave the same store. -/
theorem Watch.tracks_runStmts (room : Nat) (place : ScopeId × List Node) (last : Value)
    (stmts : List Stmt) (watch : Watch) :
    ((runStmts Watch.interpreter (Closure.run Watch.interpreter room) place last stmts watch).1,
      (runStmts Watch.interpreter (Closure.run Watch.interpreter room) place last stmts
        watch).2.store) = evalStmts (Closure.enter room) place.1 last stmts watch.store := by
  have ends : Watch.tracking.Ends watch (fun _ => Eq)
      (runStmts Watch.interpreter (Closure.run Watch.interpreter room) place last stmts watch)
      (evalStmts (Closure.enter room) place.1 last stmts watch.store) := by
    rw [← runStmts_eq_evalStmts]
    exact ends_runStmts Watch.lawful_tracking room stmts rfl (fun _ _ => rfl) rfl
  generalize runStmts _ _ _ _ _ _ = ended at ends ⊢
  generalize evalStmts _ _ _ _ _ = other at ends ⊢
  cases ends with
  | ok _ fits same =>
      cases fits
      cases same
      rfl
  | returned _ fits same =>
      cases fits
      cases same
      rfl
  | failed _ fits _ =>
      cases fits
      rfl
  | excused excused => exact absurd excused id

end Scriptlet
