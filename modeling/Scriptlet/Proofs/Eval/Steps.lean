import Mathlib.Logic.Relation
import Scriptlet.Proofs.Eval.Frame
import Scriptlet.Proofs.Eval.Integrity

/-!
# The steps of an evaluation

Whatever is evaluated, there are only three things that happen to the store. A scope is opened, and
it always lies inside another one; a name is bound in a scope; a function is created. So what each
of these keeps is kept by every evaluation, however it ends.
-/

namespace Scriptlet

namespace Store

/-- One thing that an evaluation does to a store. -/
inductive Step : Store → Store → Prop
  | push (store : Store) {new : Scope} {outer : ScopeId} (isInside : new.outer = some outer) :
      Step store (store.push new).2
  | set (store : Store) (scope : ScopeId) (name : String) (value : Value) :
      Step store (store.set scope name value)
  | newFunction (store : Store) (params : List Ident) (body : Block) (scope : ScopeId) :
      Step store (store.newFunction params body scope).2

/-- What an evaluation does to a store, step by step. -/
def Steps : Store → Store → Prop :=
  Relation.ReflTransGen Step

theorem Steps.trans {before middle after : Store} (first : before.Steps middle)
    (second : middle.Steps after) : before.Steps after :=
  Relation.ReflTransGen.trans first second

/-- What every step keeps is kept by all of them. -/
theorem Steps.kept {holds : Store → Prop} {before after : Store} (steps : before.Steps after)
    (step : ∀ {before after : Store}, before.Step after → holds before → holds after)
    (held : holds before) : holds after := by
  induction steps with
  | refl => exact held
  | tail _ last ih => exact step last ih

end Store

/-- All that an evaluation does to a store is done in steps. -/
def Eval.stepwise : Eval.interpreter.Invariant where
  Grows := Store.Steps
  Fits _ := True
  Holds _ _ := True
  Stands _ _ _ := True

theorem Eval.lawful_stepwise : Eval.stepwise.Lawful := by
  have opens {store : Store} {new : Scope} {outer : ScopeId} {block : Block}
      (isInside : new.outer = some outer) : Eval.stepwise.Opens store (store.push new) block :=
    ⟨.single (.push store isInside), trivial, fun _ _ => trivial⟩
  constructor
  case refl => exact fun _ => .refl
  case trans => exact Store.Steps.trans
  case visit => exact fun _ _ => ⟨.refl, trivial, fun _ _ => trivial⟩
  case leave => exact fun _ _ _ => ⟨.refl, trivial⟩
  case create => exact fun _ _ => ⟨.single (.newFunction _ _ _ _), trivial, trivial⟩
  case bindName => exact fun _ _ _ => ⟨.single (.set _ _ _ _), trivial⟩
  case openInside => exact fun _ _ => opens rfl
  -- the scope of a call lies inside the one in which the function was created
  case openCall => exact fun _ _ _ _ => opens (Scope.outer_bindAll _ _)
  all_goals intros; trivial

end Scriptlet
