import Scriptlet.Proofs.Eval.Relating

/-!
# Evaluations with more room

How many calls may lie inside each other decides when an evaluation breaks off, and nothing else. An
evaluation that has less room than another one approximates it: it does the same step by step, until
it either has the same outcome or overflows.

An overflow is a fault like any other, so nothing catches it on its way out. Where a part of an
evaluation overflows, the whole does, and nothing needs to be known of the other evaluation then.
-/

namespace Scriptlet

namespace Eval

variable {Result : Type}

/-- The outcome of entering a call without any room left. -/
def overflow : Except Interrupt Result := .error (.failed (.stackOverflow callLimit))

/-- From every store the evaluation overflows, or the other one has the same outcome and leads to
the same store. -/
def Approximates (evaluation other : Eval Result) : Prop :=
  ∀ store, (evaluation store).1 = overflow ∨ other store = evaluation store

/-- If the evaluation with more room overflows, then so does the one with less. -/
theorem Approximates.overflow_of_other {evaluation other : Eval Result}
    (approximates : evaluation.Approximates other) {store : Store}
    (overflows : (other store).1 = overflow) : (evaluation store).1 = overflow := by
  rcases approximates store with already | same
  · exact already
  · rwa [same] at overflows

/-- Evaluations do the very same, as long as the first one has room. -/
def roomier : interpreter.Relation interpreter where
  Grows _ _ := True
  Fits := Eq
  Like _ := Eq
  Stands _ _ := Eq
  Excused fault := fault = .stackOverflow callLimit

theorem lawful_roomier : roomier.Lawful := by
  have opens (store : Store) (opened : ScopeId × Store) (block : Block) :
      roomier.Opens store opened opened block := ⟨trivial, rfl, fun _ _ => rfl⟩
  constructor
  case like_mono => exact fun same _ => same
  case stands_mono => exact fun same _ => same
  case plain => exact fun _ _ _ => rfl
  case resembles =>
    rintro _ value _ rfl
    exact .refl value
  case child => exact fun same _ _ _ => same
  case visit => exact fun same _ => ⟨trivial, same, fun _ _ => trivial⟩
  case leave => exact fun same _ _ => ⟨trivial, same⟩
  case lookup =>
    rintro store _ ident scope _ rfl rfl
    cases interpreter.lookup scope ident.name store with
    | none => exact .none
    | some value => exact .some rfl
  case create =>
    rintro store _ token params body scope _ rfl rfl
    exact ⟨trivial, rfl, rfl⟩
  case bindName =>
    rintro store _ token name expr scope _ value _ rfl rfl rfl
    exact ⟨trivial, rfl⟩
  case openInside =>
    rintro store _ block scope _ rfl rfl
    exact opens store _ block
  case openCall =>
    rintro store _ value _ closure closure' args args' rfl rfl isValue isValue' same
    cases isValue.symm.trans isValue'
    cases List.forall₂_eq_eq_eq ▸ same
    exact opens store _ closure.body
  all_goals intros; trivial

/-- Calls with less room are entered like those with more. Only the innermost one can make a
difference, and then the first evaluation overflows. -/
theorem roomier_enters {room more : Nat} (le : room ≤ more) :
    roomier.Enters (Closure.run interpreter room) (Closure.run interpreter more) := by
  induction room generalizing more with
  | zero => exact fun _ _ _ _ _ => .excused rfl
  | succ room ih =>
      obtain ⟨more, rfl⟩ : ∃ less, more = less + 1 := ⟨more - 1, by omega⟩
      exact Interpreter.Relation.enters_succ lawful_roomier (ih (by omega))

theorem overflows_or_eq_of_ends {store : Store} {ended other : Except Interrupt Result × Store}
    (ends : roomier.Ends store (fun _ => Eq) ended other) :
    ended.1 = overflow ∨ other = ended := by
  cases ends with
  | ok _ fits same =>
      cases fits
      cases same
      exact .inr rfl
  | returned _ fits same =>
      cases fits
      cases same
      exact .inr rfl
  | failed _ fits _ =>
      cases fits
      exact .inr rfl
  | excused excused =>
      cases excused
      exact .inl rfl

end Eval

section Trees

variable {room more : Nat}

theorem Expr.approximates_eval (le : room ≤ more) (scope : ScopeId) (expr : Expr) :
    (expr.eval (Closure.enter room) scope).Approximates
      (expr.eval (Closure.enter more) scope) := by
  intro store
  rw [← Expr.run_eq_eval, ← Expr.run_eq_eval]
  exact Eval.overflows_or_eq_of_ends
    (expr.does_run Eval.lawful_roomier (Eval.roomier_enters le) rfl store rfl)

theorem approximates_evalStmts (le : room ≤ more) (scope : ScopeId) (last : Value)
    (stmts : List Stmt) :
    (evalStmts (Closure.enter room) scope last stmts).Approximates
      (evalStmts (Closure.enter more) scope last stmts) := by
  intro store
  rw [← runStmts_eq_evalStmts, ← runStmts_eq_evalStmts]
  exact Eval.overflows_or_eq_of_ends (does_runStmts Eval.lawful_roomier (Eval.roomier_enters le)
    stmts (fun _ _ => rfl) rfl store rfl)

end Trees

end Scriptlet
