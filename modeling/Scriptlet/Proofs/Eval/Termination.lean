import Scriptlet.Proofs.Eval.Derivations

/-!
# Every evaluation ends

By the rules everything evaluates to exactly one outcome, which is the one that the functions of
the evaluator compute, and the counter of calls is afterwards what it was before. That there is a
derivation is shown in `Scriptlet.Proofs.Eval.Derivations`; here each derivation is followed, and
what it says about the functions is put together to the result at the top of a session.
-/

namespace Scriptlet

section Uniqueness

variable {Result Next : Type}

/-- From one machine the functions of the evaluator compute the outcome and the other machine. -/
def Computes (evaluation : Enter → Eval Result) (before : Machine)
    (outcome : Except Interrupt Result) (after : Machine) : Prop :=
  evaluation (Closure.enterAt before.depth) before.store = (outcome, after.store) ∧
    after.depth = before.depth

variable {evaluation : Enter → Eval Result} {next : Enter → Result → Eval Next}
  {before middle after : Machine}

theorem Computes.bind {result : Result} {outcome : Except Interrupt Next}
    (first : Computes evaluation before (.ok result) middle)
    (second : Computes (next · result) middle outcome after) :
    Computes (fun enter => evaluation enter >>= next enter) before outcome after := by
  rcases first with ⟨firstDone, sameDepth⟩
  rcases second with ⟨secondDone, stillSame⟩
  rw [sameDepth] at secondDone stillSame
  exact ⟨(Eval.bind_of_ok firstDone).trans secondDone, stillSame⟩

theorem Computes.interrupted {interrupt : Interrupt}
    (first : Computes evaluation before (.error interrupt) after) :
    Computes (fun enter => evaluation enter >>= next enter) before (.error interrupt) after :=
  ⟨Eval.bind_of_error first.1, first.2⟩

theorem Computes.pure (result : Result) (machine : Machine) :
    Computes (fun _ => Pure.pure result) machine (.ok result) machine :=
  ⟨rfl, rfl⟩

theorem Computes.ofExcept (outcome : Except Fault Result) (machine : Machine) :
    Computes (fun _ => Eval.ofExcept outcome) machine (outcome.mapError .failed) machine :=
  ⟨Eval.ofExcept_apply outcome machine.store, rfl⟩

theorem evalExprs_cons_interrupted {enter : Enter} {scope : ScopeId} {expr : Expr}
    {exprs : List Expr} {store after : Store} {interrupt : Interrupt}
    (done : evalExprs enter scope (expr :: exprs) store = (.error interrupt, after)) :
    expr.eval enter scope store = (.error interrupt, after) ∨ ∃ value middle,
      expr.eval enter scope store = (.ok value, middle) ∧
        evalExprs enter scope exprs middle = (.error interrupt, after) := by
  rcases Eval.bind_cases done with ⟨other, first, same⟩ | ⟨value, middle, first, done⟩
  · cases same
    exact .inl first
  · rcases Eval.bind_cases done with ⟨other, others, same⟩ | ⟨values, late, _, done⟩
    · cases same
      exact .inr ⟨value, middle, first, others⟩
    · cases done

/-- An interrupt of an operand is one of the whole expression. -/
theorem Expr.eval_of_operands {enter : Enter} {scope : ScopeId} {store after : Store}
    {interrupt : Interrupt} (expr : Expr)
    (done : evalExprs enter scope expr.operands store = (.error interrupt, after)) :
    expr.eval enter scope store = (.error interrupt, after) := by
  cases expr with
  | name | int | bool | function => cases done
  | unary token operand | suffix token operand =>
      rcases evalExprs_cons_interrupted done with first | ⟨_, _, _, others⟩
      · exact Eval.bind_of_error first
      · cases others
  | binary token left right =>
      rcases evalExprs_cons_interrupted done with first | ⟨_, _, leftDone, others⟩
      · exact Eval.bind_of_error first
      · rcases evalExprs_cons_interrupted others with second | ⟨_, _, _, none⟩
        · exact (Eval.bind_of_ok leftDone).trans (Eval.bind_of_error second)
        · cases none
  | cond token test consequence alternative =>
      rcases evalExprs_cons_interrupted done with first | ⟨_, _, _, others⟩
      · cases alternative <;> exact Eval.bind_of_error first
      · cases others
  | call token callee args =>
      rcases evalExprs_cons_interrupted done with first | ⟨_, _, calleeDone, others⟩
      · exact Eval.bind_of_error first
      · exact (Eval.bind_of_ok calleeDone).trans (Eval.bind_of_error others)

end Uniqueness

namespace Rules

mutual

theorem Expression.computes {scope : ScopeId} {expr : Expr} {before after : Machine}
    {outcome : Except Interrupt Value} : Expression scope expr before outcome after →
    before.store.Intact → scope < before.store.scopes.size →
      Computes (expr.eval · scope) before outcome after
  | .interrupted operands, intact, isOpen => by
      rcases operands.computes intact isOpen with ⟨done, sameDepth⟩
      exact ⟨expr.eval_of_operands done, sameDepth⟩
  | .bound search, intact, _ => by
      simp [Computes, Expr.eval, Eval.lookup, intact.get?_of_looksUp search]
  | .unbound search, intact, _ => by
      simp [Computes, Expr.eval, Eval.lookup, intact.get?_of_looksUp search]
  | .int, _, _ => ⟨rfl, rfl⟩
  | .bool, _, _ => ⟨rfl, rfl⟩
  | .unary inner, intact, isOpen =>
      (inner.computes intact isOpen).bind (.ofExcept _ after)
  | .binary leftOperand rightOperand, intact, isOpen => by
      have left := leftOperand.computes intact isOpen
      rcases Expr.intact_evalAt intact isOpen left.1 with ⟨intactMiddle, grown, _⟩
      have right := rightOperand.computes intactMiddle (Nat.lt_of_lt_of_le isOpen grown)
      exact left.bind (right.bind (.ofExcept _ after))
  | .suffix inner, intact, isOpen =>
      (inner.computes intact isOpen).bind (.ofExcept _ after)
  | @Expression.consequence _ _ _ _ alternative _ _ _ _ _ condition truthy branch, intact,
      isOpen => by
      have test := condition.computes intact isOpen
      rcases Expr.intact_evalAt intact isOpen test.1 with ⟨intactMiddle, grown, _⟩
      have chosen := branch.computes intactMiddle (Nat.lt_of_lt_of_le isOpen grown)
      cases alternative with
      | none => exact test.bind (by simpa [truthy] using chosen)
      | some alternative => exact test.bind (by simpa [truthy] using chosen)
  | .alternative condition falsy branch, intact, isOpen => by
      have test := condition.computes intact isOpen
      rcases Expr.intact_evalAt intact isOpen test.1 with ⟨intactMiddle, grown, _⟩
      have chosen := branch.computes intactMiddle (Nat.lt_of_lt_of_le isOpen grown)
      exact test.bind (by simpa [falsy] using chosen)
  | .noAlternative condition falsy, intact, isOpen => by
      have test := condition.computes intact isOpen
      exact test.bind (by simpa [falsy] using Computes.pure Value.null after)
  | .function, _, _ => ⟨rfl, rfl⟩
  | .call function arguments application, intact, isOpen => by
      have callee := function.computes intact isOpen
      rcases Expr.intact_evalAt intact isOpen callee.1 with ⟨intactMiddle, grown, calleeWithin⟩
      have args := arguments.computes intactMiddle (Nat.lt_of_lt_of_le isOpen grown)
      rcases intact_evalExprsAt intactMiddle (Nat.lt_of_lt_of_le isOpen grown) args.1 with
        ⟨intactLast, grownMore, argsWithin⟩
      have applied := application.computes intactLast
        ((calleeWithin _ rfl).mono grownMore) (argsWithin _ rfl)
      exact callee.bind (args.bind applied)

theorem Expressions.computes {scope : ScopeId} {exprs : List Expr} {before after : Machine}
    {outcome : Except Interrupt (List Value)} : Expressions scope exprs before outcome after →
    before.store.Intact → scope < before.store.scopes.size →
      Computes (evalExprs · scope exprs) before outcome after
  | .nil, _, _ => ⟨rfl, rfl⟩
  | .cons first others, intact, isOpen => by
      have head := first.computes intact isOpen
      rcases Expr.intact_evalAt intact isOpen head.1 with ⟨intactMiddle, grown, _⟩
      have tail := others.computes intactMiddle (Nat.lt_of_lt_of_le isOpen grown)
      exact head.bind (tail.bind (.pure _ after))
  | .interruptedFirst first, intact, isOpen => (first.computes intact isOpen).interrupted
  | .interruptedLater first others, intact, isOpen => by
      have head := first.computes intact isOpen
      rcases Expr.intact_evalAt intact isOpen head.1 with ⟨intactMiddle, grown, _⟩
      have tail := others.computes intactMiddle (Nat.lt_of_lt_of_le isOpen grown)
      exact head.bind tail.interrupted

theorem Statement.computes {scope : ScopeId} {stmt : Stmt} {before after : Machine}
    {outcome : Except Interrupt Value} : Statement scope stmt before outcome after →
    before.store.Intact → scope < before.store.scopes.size →
      Computes (stmt.eval · scope) before outcome after
  | .letBind inner, intact, isOpen => (inner.computes intact isOpen).bind ⟨rfl, rfl⟩
  | .interruptedLet inner, intact, isOpen => (inner.computes intact isOpen).interrupted
  | .ret inner, intact, isOpen => (inner.computes intact isOpen).bind ⟨rfl, rfl⟩
  | .interruptedReturn inner, intact, isOpen => (inner.computes intact isOpen).interrupted
  | .expr inner, intact, isOpen => inner.computes intact isOpen
  | .block inner, intact, isOpen => inner.computes intact isOpen

theorem Statements.computes {scope : ScopeId} {last : Value} {stmts : List Stmt}
    {before after : Machine} {outcome : Except Interrupt Value} :
    Statements scope last stmts before outcome after → before.store.Intact →
    scope < before.store.scopes.size →
      Computes (evalStmts · scope last stmts) before outcome after
  | .nil, _, _ => ⟨rfl, rfl⟩
  | .cons first others, intact, isOpen => by
      have head := first.computes intact isOpen
      rcases Stmt.intact_evalAt intact isOpen head.1 with ⟨intactMiddle, grown⟩
      exact head.bind (others.computes intactMiddle (Nat.lt_of_lt_of_le isOpen grown))
  | .interrupted first, intact, isOpen => (first.computes intact isOpen).interrupted

theorem Block.computes {scope : ScopeId} {block : Scriptlet.Block} {before after : Machine}
    {outcome : Except Interrupt Value} : Block scope block before outcome after →
    before.store.Intact → scope < before.store.scopes.size →
      Computes (block.eval · scope) before outcome after
  | .mk inside, intact, isOpen => by
      have body := inside.computes (intact.openInside isOpen)
        (by simp [Store.openInside, Store.push])
      exact ⟨body.1, body.2⟩

theorem Application.computes {callee : Value} {args : List Value} {before after : Machine}
    {outcome : Except Interrupt Value} : Application callee args before outcome after →
    before.store.Intact → callee.Within before.store.scopes.size →
    (∀ arg ∈ args, arg.Within before.store.scopes.size) →
      Computes (callee.apply · args) before outcome after
  | .notAFunction notFunction, _, _, _ => by
      cases callee with
      | function closure => exact absurd rfl notFunction
      | int | bool | null => exact ⟨rfl, rfl⟩
  | .argumentCount mismatch, _, _, _ => by
      simp only [Computes, Value.apply, if_neg mismatch]
      exact ⟨rfl, trivial⟩
  | .stackOverflow fits full, _, _, _ => by
      simp only [Computes, Value.apply, if_pos fits, Closure.enterAt_of_full full]
      exact ⟨rfl, trivial⟩
  | .enter fits room body, intact, isOpen, argsWithin => by
      have inside := body.computes (intact.openCall isOpen argsWithin)
        (by simp [Store.openCall, Store.push])
      simp only [Computes, Value.apply, if_pos fits, Closure.enterAt_of_room room]
      -- the counter was raised by one for the body, and the body left it there
      refine ⟨Eval.catchReturn_apply inside.1, ?_⟩
      rw [inside.2]
      exact Nat.add_sub_cancel _ 1

end

/-- A computation gives back the counter, so only its store is open. -/
theorem eq_mk_of_computes {Result : Type} {evaluation : Enter → Eval Result}
    {before after : Machine} {outcome : Except Interrupt Result}
    (computes : Computes evaluation before outcome after) :
    after = ⟨after.store, before.depth⟩ :=
  congrArg (Machine.mk after.store) computes.2

section Agreement

variable {scope : ScopeId} {machine after : Machine} {outcome : Except Interrupt Value}

theorem expression_iff {expr : Expr} (intact : machine.store.Intact)
    (isOpen : scope < machine.store.scopes.size) :
    Expression scope expr machine outcome after ↔
      Computes (expr.eval · scope) machine outcome after := by
  constructor
  · exact fun derived => derived.computes intact isOpen
  · intro computes
    rw [eq_mk_of_computes computes]
    exact expr.evaluates (applicable machine.depth) intact isOpen computes.1

theorem statement_iff {stmt : Stmt} (intact : machine.store.Intact)
    (isOpen : scope < machine.store.scopes.size) :
    Statement scope stmt machine outcome after ↔
      Computes (stmt.eval · scope) machine outcome after := by
  constructor
  · exact fun derived => derived.computes intact isOpen
  · intro computes
    rw [eq_mk_of_computes computes]
    exact stmt.evaluates (applicable machine.depth) intact isOpen computes.1

theorem statements_iff {last : Value} {stmts : List Stmt} (intact : machine.store.Intact)
    (isOpen : scope < machine.store.scopes.size) :
    Statements scope last stmts machine outcome after ↔
      Computes (evalStmts · scope last stmts) machine outcome after := by
  constructor
  · exact fun derived => derived.computes intact isOpen
  · intro computes
    rw [eq_mk_of_computes computes]
    exact evaluates_stmts (applicable machine.depth) stmts intact isOpen computes.1

end Agreement

theorem settles_iff {outcome : Except Interrupt Value} {result : Except Fault Value}
    {evaluation : Eval Value} {store after : Store} (done : evaluation store = (outcome, after)) :
    Settles outcome result ↔ evaluation.settle store = (result, after) := by
  rw [Eval.settle, done]
  constructor
  · intro settles
    cases settles <;> rfl
  · intro settled
    rcases outcome with (value | fault) | value <;> cases settled <;> constructor

/-- A rule that agrees with a function of the evaluator ends with exactly one result. -/
theorem ends_iff {rule : Machine → Except Interrupt Value → Machine → Prop}
    {evaluation : Enter → Eval Value} {store : Store} {depth : Nat}
    (agrees : ∀ outcome after, rule ⟨store, depth⟩ outcome after ↔
      Computes evaluation ⟨store, depth⟩ outcome after) :
    ∃ result after, (evaluation (Closure.enter (callLimit - depth))).settle store = (result, after) ∧
      ∀ done, Ends rule ⟨store, depth⟩ done ↔ done = (result, ⟨after, depth⟩) := by
  rcases evaluated : evaluation (Closure.enterAt depth) store with ⟨outcome, after⟩
  rcases settled : (evaluation (Closure.enterAt depth)).settle store with ⟨result, last⟩
  have same : last = after := by
    have stores := Eval.settle_snd (evaluation (Closure.enterAt depth)) store
    rw [settled, evaluated] at stores
    exact stores
  subst same
  refine ⟨result, last, settled, ?_⟩
  rintro ⟨other, machine⟩
  constructor
  · rintro ⟨otherOutcome, derived, settles⟩
    have computes : Computes evaluation ⟨store, depth⟩ otherOutcome machine :=
      (agrees _ _).1 derived
    have again := (settles_iff computes.1).1 settles
    rw [eq_mk_of_computes computes]
    cases again.symm.trans settled
    rfl
  · intro isDone
    cases isDone
    exact ⟨outcome, (agrees _ _).2 ⟨evaluated, rfl⟩, (settles_iff evaluated).2 settled⟩

end Rules

namespace Session

/-- Whatever was evaluated before, every program, statement and expression evaluates to exactly one
result in the global scope, a value or a fault, and leaves the counter of calls as it was. The
result is what the evaluator computes by recursion on the calls that the counter still allows and,
for a fixed number of them, on the tree. -/
theorem Reachable.evaluation_total {session : Session} (reachable : session.Reachable)
    (depth : Nat) :
    (∀ program : Program, ∃ result after,
      (evalStmts (Closure.enter (callLimit - depth)) session.globals .null
        program.statements).settle session.store = (result, after) ∧
      ∀ done, Rules.Ends (Rules.Statements session.globals .null program.statements)
        ⟨session.store, depth⟩ done ↔ done = (result, ⟨after, depth⟩)) ∧
    (∀ stmt : Stmt, ∃ result after,
      (stmt.eval (Closure.enter (callLimit - depth)) session.globals).settle session.store =
        (result, after) ∧
      ∀ done, Rules.Ends (Rules.Statement session.globals stmt) ⟨session.store, depth⟩ done ↔
        done = (result, ⟨after, depth⟩)) ∧
    ∀ expr : Expr, ∃ result after,
      (expr.eval (Closure.enter (callLimit - depth)) session.globals).settle session.store =
        (result, after) ∧
      ∀ done, Rules.Ends (Rules.Expression session.globals expr) ⟨session.store, depth⟩ done ↔
        done = (result, ⟨after, depth⟩) := by
  rcases reachable.intact with ⟨intact, isOpen⟩
  refine ⟨fun program => ?_, fun stmt => ?_, fun expr => ?_⟩
  · exact Rules.ends_iff fun _ _ => Rules.statements_iff intact isOpen
  · exact Rules.ends_iff fun _ _ => Rules.statement_iff intact isOpen
  · exact Rules.ends_iff fun _ _ => Rules.expression_iff intact isOpen

/-- Two functions that call each other without end: with 250 calls being evaluated already, a call
of one of them ends in an overflow. -/
theorem evaluation_total_mutual :
    let session := (Session.new.evalProgram (Program.read
      "let f = fn(n) \x7b g(n) \x7d; let g = fn(n) \x7b f(n) \x7d;").1).2
    let call : Expr := .call (.mark .lparen) (.name (.ofToken (.word "f")))
      [.bool (.word "true") true]
    session.Reachable ∧ ∃ after, Rules.Ends (Rules.Expression session.globals call)
      ⟨session.store, 250⟩ (.error (.stackOverflow callLimit), ⟨after, 250⟩) := by
  intro session call
  have reachable : session.Reachable := .program .new _
  have overflows : (match ((call.eval (Closure.enter (callLimit - 250)) session.globals).settle
      session.store).1 with
      | .error fault => some fault
      | .ok _ => none) = some (.stackOverflow callLimit) := by
    decide +kernel
  rcases (reachable.evaluation_total 250).2.2 call with ⟨result, after, computed, only⟩
  rw [computed] at overflows
  cases result with
  | ok value => cases overflows
  | error fault =>
      cases overflows
      exact ⟨reachable, after, (only _).2 rfl⟩

end Session

end Scriptlet
