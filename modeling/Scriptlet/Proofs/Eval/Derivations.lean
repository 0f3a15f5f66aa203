import Scriptlet.Proofs.Eval.Integrity
import Scriptlet.Proofs.Eval.Rules

/-!
# Everything evaluates

What the functions of the evaluator compute can be derived by the rules, so by the rules everything
evaluates to something.

There are two reasons why a derivation could fail to exist. A search for a name could go around in
circles; in an intact store it does not, as outer scopes are older. And calls could lie inside each
other without end. The body of a function is no part of the call, so here the induction is on the
number of calls that the counter still allows, and for a fixed number on the tree.
-/

namespace Scriptlet

namespace Store

variable {store : Store} {id : ScopeId} {scope : Scope} {name : String}

theorem get?_of_bound {value : Value} (isScope : store.scopes[id]? = some scope)
    (bound : scope.find? name = some value) : store.get? id name = some value := by
  rw [Store.get?]
  simp [isScope, bound]

theorem get?_of_outer {outer : ScopeId} (isScope : store.scopes[id]? = some scope)
    (notBound : scope.find? name = none) (link : scope.outer = some outer) (older : outer < id) :
    store.get? id name = store.get? outer name := by
  rw [Store.get?]
  simp [isScope, notBound, link, older]

theorem get?_of_missing (isScope : store.scopes[id]? = some scope)
    (notBound : scope.find? name = none) (noLink : scope.outer = none) :
    store.get? id name = none := by
  rw [Store.get?]
  simp [isScope, notBound, noLink]

theorem Intact.looksUp_get? (intact : store.Intact) (name : String)
    (isOpen : id < store.scopes.size) : LooksUp store name id (store.get? id name) := by
  induction id using Nat.strongRecOn with
  | _ id ih =>
      have isScope := Array.getElem?_eq_getElem isOpen
      cases bound : store.scopes[id].find? name with
      | some value =>
          rw [get?_of_bound isScope bound]
          exact .here isScope bound
      | none =>
          cases link : store.scopes[id].outer with
          | none =>
              rw [get?_of_missing isScope bound link]
              exact .missing isScope bound link
          | some outer =>
              have older : outer < id := intact.outer isScope outer link
              rw [get?_of_outer isScope bound link older]
              exact .outward isScope bound link (ih outer older (Nat.lt_trans older isOpen))

theorem Intact.get?_of_looksUp (intact : store.Intact) {found : Option Value}
    (search : LooksUp store name id found) : store.get? id name = found := by
  induction search with
  | here isScope bound => exact get?_of_bound isScope bound
  | outward isScope notBound link _ ih =>
      rw [get?_of_outer isScope notBound link (intact.outer isScope _ link), ih]
  | missing isScope notBound noLink => exact get?_of_missing isScope notBound noLink

end Store

/-- Runs the body of a function when so many calls are being evaluated already. -/
def Closure.enterAt (depth : Nat) : Enter := Closure.enter (callLimit - depth)

namespace Eval

variable {Result : Type}

theorem ofExcept_apply (outcome : Except Fault Result) (store : Store) :
    ofExcept outcome store = (outcome.mapError .failed, store) := by
  cases outcome <;> rfl

theorem catchReturn_apply {evaluation : Eval Value} {store after : Store}
    {outcome : Except Interrupt Value} (done : evaluation store = (outcome, after)) :
    evaluation.catchReturn store = (caught outcome, after) := by
  rw [catchReturn, done]
  rcases outcome with (value | fault) | value <;> rfl

theorem fst_catchReturn (evaluation : Eval Value) (store : Store) :
    (evaluation.catchReturn store).1 = caught (evaluation store).1 :=
  congrArg Prod.fst (catchReturn_apply rfl)

end Eval

namespace Closure

theorem enterAt_of_full {depth : Nat} (full : callLimit ≤ depth) (closure : Closure)
    (args : List Value) : enterAt depth closure args = Eval.fail (.stackOverflow callLimit) := by
  rw [enterAt, Nat.sub_eq_zero_of_le full, enter]

theorem enterAt_of_room {depth : Nat} (room : depth < callLimit) (closure : Closure)
    (args : List Value) :
    enterAt depth closure args = (do
      let scope ← Eval.openCall closure args
      Eval.catchReturn (evalStmts (enterAt (depth + 1)) scope .null closure.body.statements)) := by
  have oneMore : callLimit - depth = callLimit - (depth + 1) + 1 := by omega
  rw [enterAt, oneMore, enter, enterAt]

end Closure

section Intact

variable {depth : Nat} {scope : ScopeId} {store after : Store}

theorem Expr.intact_evalAt (intact : store.Intact) (isOpen : scope < store.scopes.size)
    {expr : Expr} {outcome : Except Interrupt Value}
    (done : expr.eval (Closure.enterAt depth) scope store = (outcome, after)) :
    after.Intact ∧ store.scopes.size ≤ after.scopes.size ∧
      ∀ value, outcome = .ok value → value.Within after.scopes.size := by
  have kept := expr.kept_eval Eval.lawful_integrity (callLimit - depth) intact isOpen
  rw [← Closure.enterAt, done] at kept
  exact ⟨kept.fits, kept.grows, fun _ => kept.ok⟩

theorem intact_evalExprsAt (intact : store.Intact) (isOpen : scope < store.scopes.size)
    {exprs : List Expr} {outcome : Except Interrupt (List Value)}
    (done : evalExprs (Closure.enterAt depth) scope exprs store = (outcome, after)) :
    after.Intact ∧ store.scopes.size ≤ after.scopes.size ∧
      ∀ values, outcome = .ok values → ∀ value ∈ values, value.Within after.scopes.size := by
  have kept := kept_evalExprs Eval.lawful_integrity (callLimit - depth) exprs intact
    fun _ _ => isOpen
  rw [← Closure.enterAt, done] at kept
  exact ⟨kept.fits, kept.grows, fun _ => kept.ok⟩

theorem Stmt.intact_evalAt (intact : store.Intact) (isOpen : scope < store.scopes.size)
    {stmt : Stmt} {outcome : Except Interrupt Value}
    (done : stmt.eval (Closure.enterAt depth) scope store = (outcome, after)) :
    after.Intact ∧ store.scopes.size ≤ after.scopes.size := by
  have kept := stmt.kept_eval Eval.lawful_integrity (callLimit - depth) intact isOpen
  rw [← Closure.enterAt, done] at kept
  exact ⟨kept.fits, kept.grows⟩

end Intact

/-- A function whose body is run when `depth` calls are being evaluated has the outcome of this run
by the rules. -/
def Applicable (depth : Nat) : Prop :=
  ∀ {closure : Closure} {args : List Value} {store after : Store}
    {outcome : Except Interrupt Value}, store.Intact → closure.scope < store.scopes.size →
    (∀ arg ∈ args, arg.Within store.scopes.size) → closure.params.length = args.length →
    Closure.enterAt depth closure args store = (outcome, after) →
      Rules.Application (.function closure) args ⟨store, depth⟩ outcome ⟨after, depth⟩

section Existence

variable {depth : Nat}

theorem Value.application (applicable : Applicable depth) {callee : Value} {args : List Value}
    {store after : Store} {outcome : Except Interrupt Value} (intact : store.Intact)
    (calleeWithin : callee.Within store.scopes.size)
    (argsWithin : ∀ arg ∈ args, arg.Within store.scopes.size)
    (done : callee.apply (Closure.enterAt depth) args store = (outcome, after)) :
    Rules.Application callee args ⟨store, depth⟩ outcome ⟨after, depth⟩ := by
  cases callee with
  | function closure =>
      rw [Value.apply] at done
      split at done
      · next fits => exact applicable intact calleeWithin argsWithin fits done
      · next mismatch =>
          cases done
          exact .argumentCount mismatch
  | int | bool | null =>
      cases done
      exact .notAFunction (by simp [Value.type])

mutual

theorem Expr.evaluates (applicable : Applicable depth) : (expr : Expr) → {scope : ScopeId} →
    {store after : Store} → {outcome : Except Interrupt Value} → store.Intact →
    scope < store.scopes.size → expr.eval (Closure.enterAt depth) scope store = (outcome, after) →
      Rules.Expression scope expr ⟨store, depth⟩ outcome ⟨after, depth⟩
  | .name ident, scope, store, _, _, intact, isOpen, done => by
      have search := intact.looksUp_get? ident.name isOpen
      simp only [Expr.eval, Eval.lookup] at done
      split at done
      · next value found =>
          cases done
          rw [found] at search
          exact .bound search
      · next missing =>
          cases done
          rw [missing] at search
          exact .unbound search
  | .int _ _, _, _, _, _, _, _, done => by
      cases done
      exact .int
  | .bool _ _, _, _, _, _, _, _, done => by
      cases done
      exact .bool
  | .unary token operand, _, _, _, _, intact, isOpen, done => by
      rcases Eval.bind_cases done with ⟨interrupt, inner, rfl⟩ | ⟨value, middle, inner, done⟩
      · exact .interrupted (.interruptedFirst (operand.evaluates applicable intact isOpen inner))
      · rw [Eval.ofExcept_apply] at done
        cases done
        exact .unary (operand.evaluates applicable intact isOpen inner)
  | .binary token left right, _, _, _, _, intact, isOpen, done => by
      rcases Eval.bind_cases done with ⟨interrupt, first, rfl⟩ | ⟨leftValue, middle, first, done⟩
      · exact .interrupted (.interruptedFirst (left.evaluates applicable intact isOpen first))
      · have leftStep := left.evaluates applicable intact isOpen first
        rcases Expr.intact_evalAt intact isOpen first with ⟨intactMiddle, grown, _⟩
        have stillOpen := Nat.lt_of_lt_of_le isOpen grown
        rcases Eval.bind_cases done with ⟨interrupt, second, rfl⟩ | ⟨rightValue, late, second, done⟩
        · have rightStep := right.evaluates applicable intactMiddle stillOpen second
          exact .interrupted (.interruptedLater leftStep (.interruptedFirst rightStep))
        · rw [Eval.ofExcept_apply] at done
          cases done
          exact .binary leftStep (right.evaluates applicable intactMiddle stillOpen second)
  | .suffix token operand, _, _, _, _, intact, isOpen, done => by
      rcases Eval.bind_cases done with ⟨interrupt, inner, rfl⟩ | ⟨value, middle, inner, done⟩
      · exact .interrupted (.interruptedFirst (operand.evaluates applicable intact isOpen inner))
      · rw [Eval.ofExcept_apply] at done
        cases done
        exact .suffix (operand.evaluates applicable intact isOpen inner)
  | .cond token test consequence none, _, _, _, _, intact, isOpen, done => by
      rcases Eval.bind_cases done with ⟨interrupt, inner, rfl⟩ | ⟨value, middle, inner, done⟩
      · exact .interrupted (.interruptedFirst (test.evaluates applicable intact isOpen inner))
      · have testStep := test.evaluates applicable intact isOpen inner
        rcases Expr.intact_evalAt intact isOpen inner with ⟨intactMiddle, grown, _⟩
        split at done
        · next truthy =>
            exact .consequence testStep truthy (consequence.evaluates applicable intactMiddle
              (Nat.lt_of_lt_of_le isOpen grown) done)
        · next falsy =>
            cases done
            exact .noAlternative testStep (by simpa using falsy)
  | .cond token test consequence (some alternative), _, _, _, _, intact, isOpen, done => by
      rcases Eval.bind_cases done with ⟨interrupt, inner, rfl⟩ | ⟨value, middle, inner, done⟩
      · exact .interrupted (.interruptedFirst (test.evaluates applicable intact isOpen inner))
      · have testStep := test.evaluates applicable intact isOpen inner
        rcases Expr.intact_evalAt intact isOpen inner with ⟨intactMiddle, grown, _⟩
        have stillOpen := Nat.lt_of_lt_of_le isOpen grown
        split at done
        · next truthy =>
            exact .consequence testStep truthy
              (consequence.evaluates applicable intactMiddle stillOpen done)
        · next falsy =>
            exact .alternative testStep (by simpa using falsy)
              (alternative.evaluates applicable intactMiddle stillOpen done)
  | .function _ _ _, _, _, _, _, _, _, done => by
      cases done
      exact .function
  | .call token callee args, _, _, _, _, intact, isOpen, done => by
      rcases Eval.bind_cases done with ⟨interrupt, first, rfl⟩ | ⟨value, middle, first, done⟩
      · exact .interrupted (.interruptedFirst (callee.evaluates applicable intact isOpen first))
      · have calleeStep := callee.evaluates applicable intact isOpen first
        rcases Expr.intact_evalAt intact isOpen first with ⟨intactMiddle, grown, calleeWithin⟩
        have stillOpen := Nat.lt_of_lt_of_le isOpen grown
        rcases Eval.bind_cases done with ⟨interrupt, second, rfl⟩ | ⟨values, late, second, done⟩
        · have argsStep := evaluates_exprs applicable args intactMiddle stillOpen second
          exact .interrupted (.interruptedLater calleeStep argsStep)
        · have argsStep := evaluates_exprs applicable args intactMiddle stillOpen second
          rcases intact_evalExprsAt intactMiddle stillOpen second with
            ⟨intactLate, grownMore, argsWithin⟩
          exact .call calleeStep argsStep (Value.application applicable intactLate
            ((calleeWithin value rfl).mono grownMore) (argsWithin values rfl) done)

theorem evaluates_exprs (applicable : Applicable depth) : (exprs : List Expr) → {scope : ScopeId} →
    {store after : Store} → {outcome : Except Interrupt (List Value)} → store.Intact →
    scope < store.scopes.size →
    evalExprs (Closure.enterAt depth) scope exprs store = (outcome, after) →
      Rules.Expressions scope exprs ⟨store, depth⟩ outcome ⟨after, depth⟩
  | [], _, _, _, _, _, _, done => by
      cases done
      exact .nil
  | expr :: exprs, _, _, _, _, intact, isOpen, done => by
      rcases Eval.bind_cases done with ⟨interrupt, first, rfl⟩ | ⟨value, middle, first, done⟩
      · exact .interruptedFirst (expr.evaluates applicable intact isOpen first)
      · have firstStep := expr.evaluates applicable intact isOpen first
        rcases Expr.intact_evalAt intact isOpen first with ⟨intactMiddle, grown, _⟩
        have stillOpen := Nat.lt_of_lt_of_le isOpen grown
        rcases Eval.bind_cases done with ⟨interrupt, others, rfl⟩ | ⟨values, late, others, done⟩
        · exact .interruptedLater firstStep
            (evaluates_exprs applicable exprs intactMiddle stillOpen others)
        · cases done
          exact .cons firstStep (evaluates_exprs applicable exprs intactMiddle stillOpen others)

theorem Stmt.evaluates (applicable : Applicable depth) : (stmt : Stmt) → {scope : ScopeId} →
    {store after : Store} → {outcome : Except Interrupt Value} → store.Intact →
    scope < store.scopes.size → stmt.eval (Closure.enterAt depth) scope store = (outcome, after) →
      Rules.Statement scope stmt ⟨store, depth⟩ outcome ⟨after, depth⟩
  | .letBind token name value, _, _, _, _, intact, isOpen, done => by
      rcases Eval.bind_cases done with ⟨interrupt, inner, rfl⟩ | ⟨result, middle, inner, done⟩
      · exact .interruptedLet (value.evaluates applicable intact isOpen inner)
      · cases done
        exact .letBind (value.evaluates applicable intact isOpen inner)
  | .ret token value, _, _, _, _, intact, isOpen, done => by
      rcases Eval.bind_cases done with ⟨interrupt, inner, rfl⟩ | ⟨result, middle, inner, done⟩
      · exact .interruptedReturn (value.evaluates applicable intact isOpen inner)
      · cases done
        exact .ret (value.evaluates applicable intact isOpen inner)
  | .expr _ expr, _, _, _, _, intact, isOpen, done =>
      .expr (expr.evaluates applicable intact isOpen done)
  | .block block, _, _, _, _, intact, isOpen, done =>
      .block (block.evaluates applicable intact isOpen done)

theorem evaluates_stmts (applicable : Applicable depth) : (stmts : List Stmt) →
    {scope : ScopeId} → {last : Value} → {store after : Store} →
    {outcome : Except Interrupt Value} → store.Intact → scope < store.scopes.size →
    evalStmts (Closure.enterAt depth) scope last stmts store = (outcome, after) →
      Rules.Statements scope last stmts ⟨store, depth⟩ outcome ⟨after, depth⟩
  | [], _, _, _, _, _, _, _, done => by
      cases done
      exact .nil
  | stmt :: stmts, _, _, _, _, _, intact, isOpen, done => by
      rcases Eval.bind_cases done with ⟨interrupt, first, rfl⟩ | ⟨value, middle, first, done⟩
      · exact .interrupted (stmt.evaluates applicable intact isOpen first)
      · have firstStep := stmt.evaluates applicable intact isOpen first
        rcases Stmt.intact_evalAt intact isOpen first with ⟨intactMiddle, grown⟩
        exact .cons firstStep (evaluates_stmts applicable stmts intactMiddle
          (Nat.lt_of_lt_of_le isOpen grown) done)

theorem Block.evaluates (applicable : Applicable depth) : (block : Block) → {scope : ScopeId} →
    {store after : Store} → {outcome : Except Interrupt Value} → store.Intact →
    scope < store.scopes.size → block.eval (Closure.enterAt depth) scope store = (outcome, after) →
      Rules.Block scope block ⟨store, depth⟩ outcome ⟨after, depth⟩
  | .mk token statements, scope, store, _, _, intact, isOpen, done =>
      .mk (evaluates_stmts applicable statements (intact.openInside isOpen)
        (by simp [Store.openInside, Store.push]) done)

end

end Existence

/-- Every function is applicable, by recursion on the number of calls that are still allowed. -/
theorem applicable (depth : Nat) : Applicable depth := by
  intro closure args store after outcome intact isOpen argsWithin fits done
  by_cases room : depth < callLimit
  · have inside : Applicable (depth + 1) := applicable (depth + 1)
    have innerOpen : (store.openCall closure args).1 <
        (store.openCall closure args).2.scopes.size := by
      simp [Store.openCall, Store.push]
    rcases bodyDone : evalStmts (Closure.enterAt (depth + 1)) (store.openCall closure args).1 .null
      closure.body.statements (store.openCall closure args).2 with ⟨result, last⟩
    have bodyStep := evaluates_stmts inside closure.body.statements
      (intact.openCall isOpen argsWithin) innerOpen bodyDone
    rw [Closure.enterAt_of_room room] at done
    have ended : (caught result, last) = (outcome, after) :=
      (Eval.catchReturn_apply bodyDone).symm.trans done
    cases ended
    exact @Rules.Application.enter closure args ⟨store, depth⟩ _ _ fits room bodyStep
  · have full : callLimit ≤ depth := Nat.le_of_not_lt room
    rw [Closure.enterAt_of_full full] at done
    cases done
    exact .stackOverflow fits full
termination_by callLimit - depth

end Scriptlet
