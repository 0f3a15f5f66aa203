import Mathlib.Algebra.Group.Nat.Defs
import Scriptlet.Proofs.Eval.Approximation
import Scriptlet.Proofs.Session.Atomicity

/-!
# The call limit

The limit for calls inside each other only ever aborts: an evaluation that starts with fewer calls
being evaluated has the same outcome, unless the one with more of them overflows. Where exactly the
limit lies is shown by a function that counts down to zero. It calls itself as often as its argument
says, and the call that the limit forbids is the one for which 256 others are being evaluated.
-/

namespace Scriptlet

theorem Block.eval_singleton (enter : Enter) (scope : ScopeId) (token : Token) (stmt : Stmt)
    (store : Store) : (Block.mk token [stmt]).eval enter scope store =
      stmt.eval enter store.scopes.size (store.openInside scope).2 :=
  congrFun (evalStmts_singleton enter store.scopes.size .null stmt) (store.openInside scope).2

namespace Store

variable {store : Store} {id : ScopeId}

/-- What is seen from a scope does not change when another one is opened. -/
theorem get?_push (new : Scope) (name : String) (isOpen : id < store.scopes.size) :
    (store.push new).2.get? id name = store.get? id name := by
  induction id using Nat.strongRecOn with
  | _ id ih =>
      have isScope := Array.getElem?_eq_getElem isOpen
      have still := store.extends_push new id trivial _ isScope
      cases bound : store.scopes[id].find? name with
      | some value => rw [get?_of_bound isScope bound, get?_of_bound still bound]
      | none =>
          rw [Store.get?, Store.get?]
          simp only [isScope, still, bound]
          cases store.scopes[id].outer with
          | none => rfl
          | some outer =>
              dsimp only
              split
              · next older => exact ih outer older (Nat.lt_trans older isOpen)
              · rfl

/-- A new scope inside another one shows what can be seen from that one. -/
theorem get?_openInside {name : String} (isOpen : id < store.scopes.size) :
    (store.openInside id).2.get? store.scopes.size name = store.get? id name := by
  have isNew : (store.openInside id).2.scopes[store.scopes.size]? = some { outer := some id } := by
    simp [openInside, push]
  rw [get?_of_outer isNew rfl rfl isOpen]
  exact get?_push _ name isOpen

end Store

namespace Countdown

/-- A function that counts down to zero. -/
def definition : String :=
  "let f = fn(x) \x7b if (x > 0) \x7b f(x - 1) \x7d else \x7b x \x7d \x7d; "

/-- The function, called with a number. -/
def source (number : Nat) : String := definition ++ "f(" ++ toString number ++ ")"

def f : Expr := .name (.ofToken (.word "f"))

def x : Expr := .name (.ofToken (.word "x"))

def test : Expr := .binary (.mark .gt) x (.int ⟨.int, "0"⟩ 0)

def recursion : Expr :=
  .call (.mark .lparen) f [.binary (.mark .minus) x (.int ⟨.int, "1"⟩ 1)]

def body : Block :=
  .mk (.mark .lbrace) [.expr (.word "if") (.cond (.word "if") test
    (.mk (.mark .lbrace) [.expr (.word "f") recursion])
    (some (.mk (.mark .lbrace) [.expr (.word "x") x])))]

/-- The definition, as it is read. -/
def program : Program :=
  ⟨[.letBind (.word "let") (.ofToken (.word "f"))
    (.function (.word "fn") [.ofToken (.word "x")] body)]⟩

/-- The function that the definition creates in a new session. -/
def closure : Closure := ⟨0, [.ofToken (.word "x")], body, Session.new.globals⟩

/-- What the definition leaves behind. -/
def session : Session := (Session.new.evalProgram program).2

theorem parse_definition : Program.parse definition = .ok program := by decide +kernel

theorem session_eq : session = ⟨0, ⟨#[⟨[("f", .function closure)], none⟩], 1⟩⟩ := by
  decide +kernel

/-- The function is bound in the global scope. -/
def Defined (store : Store) : Prop :=
  ∃ scope, store.scopes[0]? = some scope ∧ scope.find? "f" = some (.function closure)

/-- The scope of a call. -/
def frame (value : Int64) : Scope := ⟨[("x", .int value)], some Session.new.globals⟩

/-- From this scope both names of the body can be seen. -/
structure Sees (store : Store) (scope : ScopeId) (value : Int64) : Prop where
  f : store.get? scope "f" = some (.function closure)
  x : store.get? scope "x" = some (.int value)

section Body

variable {store : Store} {value : Int64} {scope : ScopeId} {enter : Enter}

theorem Defined.push (defined : Defined store) (new : Scope) : Defined (store.push new).2 := by
  rcases defined with ⟨scope, isScope, bound⟩
  exact ⟨scope, store.extends_push new 0 trivial scope isScope, bound⟩

theorem Defined.openInside (defined : Defined store) (scope : ScopeId) :
    Defined (store.openInside scope).2 :=
  defined.push _

theorem Defined.sees_call (defined : Defined store) (value : Int64) :
    Sees (store.push (frame value)).2 store.scopes.size value := by
  have isFrame : (store.push (frame value)).2.scopes[store.scopes.size]? = some (frame value) := by
    simp [Store.push]
  rcases defined.push (frame value) with ⟨global, isGlobal, bound⟩
  rcases defined with ⟨_, isScope, _⟩
  have isOpen : 0 < store.scopes.size := (Array.getElem?_eq_some_iff.1 isScope).1
  constructor
  · rw [Store.get?_of_outer isFrame rfl rfl isOpen]
    exact Store.get?_of_bound isGlobal bound
  · exact Store.get?_of_bound isFrame rfl

theorem Sees.inside (sees : Sees store scope value) (isOpen : scope < store.scopes.size) :
    Sees (store.openInside scope).2 store.scopes.size value := by
  constructor
  · rw [Store.get?_openInside isOpen]
    exact sees.f
  · rw [Store.get?_openInside isOpen]
    exact sees.x

theorem eval_x (sees : Sees store scope value) :
    x.eval enter scope store = (.ok (.int value), store) := by
  simp [x, Expr.eval, Eval.lookup, Ident.ofToken, Token.word, sees.x]

theorem eval_f (bound : store.get? scope "f" = some (.function closure)) :
    f.eval enter scope store = (.ok (.function closure), store) := by
  simp [f, Expr.eval, Eval.lookup, Ident.ofToken, Token.word, bound]

theorem eval_test (sees : Sees store scope value) :
    test.eval enter scope store = (.ok (.bool (decide (0 < value))), store) :=
  (Eval.bind_of_ok (eval_x sees)).trans rfl

theorem eval_recursion (sees : Sees store scope value) :
    recursion.eval enter scope store = enter closure [.int (value - 1)] store := by
  have arg : evalExprs enter scope [.binary (.mark .minus) x (.int ⟨.int, "1"⟩ 1)] store =
      (.ok [.int (value - 1)], store) :=
    (Eval.bind_of_ok ((Eval.bind_of_ok (eval_x sees)).trans rfl)).trans rfl
  exact (Eval.bind_of_ok (eval_f sees.f)).trans (Eval.bind_of_ok arg)

theorem eval_body (enter : Enter) (sees : Sees store scope value)
    (isOpen : scope < store.scopes.size) :
    evalStmts enter scope .null body.statements store =
      if 0 < value then enter closure [.int (value - 1)] (store.openInside scope).2
      else (.ok (.int value), (store.openInside scope).2) := by
  have inside := sees.inside isOpen
  simp only [body, Block.statements, evalStmts_singleton, Stmt.eval, Expr.eval]
  rw [Eval.bind_of_ok (eval_test sees)]
  by_cases positive : 0 < value
  · simp only [positive, decide_true, Value.truthy, if_true, Block.eval_singleton, Stmt.eval]
    exact eval_recursion inside
  · simp only [positive, decide_false, Value.truthy, Bool.false_eq_true, if_false,
      Block.eval_singleton, Stmt.eval]
    exact eval_x inside

end Body

theorem toInt_pred {value : Int64} (positive : 0 < value.toInt) :
    (value - 1).toInt = value.toInt - 1 := by
  have small := value.toInt_lt
  rw [Int64.toInt_sub, show (1 : Int64).toInt = 1 from rfl]
  apply Int.bmod_eq_of_le <;> omega

/-- With room for so many calls the function counts down from all smaller numbers. -/
theorem enter_closure {room : Nat} {store : Store} {value : Int64} (defined : Defined store)
    (nonnegative : 0 ≤ value.toInt) :
    (Closure.enter room closure [.int value] store).1 =
      if value.toInt < room then .ok (.int 0) else Eval.overflow := by
  induction room generalizing store value with
  | zero =>
      rw [if_neg (by omega)]
      rfl
  | succ room ih =>
      have isOpen : store.scopes.size < (store.push (frame value)).2.scopes.size := by
        simp [Store.push]
      have opened : Closure.enter (room + 1) closure [.int value] store =
          (evalStmts (Closure.enter room) store.scopes.size .null body.statements).catchReturn
            (store.push (frame value)).2 := rfl
      have done := eval_body (Closure.enter room) (defined.sees_call value) isOpen
      rw [opened, Eval.fst_catchReturn, done]
      by_cases positive : 0 < value
      · rw [if_pos positive]
        rw [Int64.lt_iff_toInt_lt, Int64.toInt_zero] at positive
        have smaller := toInt_pred positive
        rw [ih ((defined.push (frame value)).openInside _) (by omega), smaller]
        by_cases small : value.toInt - 1 < room
        · rw [if_pos small, if_pos (by omega)]
          rfl
        · rw [if_neg small, if_neg (by omega)]
          rfl
      · rw [if_neg positive]
        rw [Int64.lt_iff_toInt_lt, Int64.toInt_zero] at positive
        have isZero : value.toInt = 0 := by omega
        rw [if_pos (by omega), Int64.toInt_inj.1 (isZero.trans Int64.toInt_zero.symm)]
        rfl

theorem tokenize_call (number : Nat) :
    tokenize ("f(" ++ (toString number ++ ")")) =
      [.word "f", .mark .lparen, ⟨.int, toString number⟩, .mark .rparen] := by
  have opening : tokenize "f(" = [.word "f", .mark .lparen] := by decide +kernel
  have closing : Spells ")".toList [.mark .rparen] := spells_iff.2 (by decide +kernel)
  have apart : Kind.int.Apart ")".toList := by simp [Kind.Apart, Kind.joins]
  have numeral : Spells (toString number ++ ")").toList
      [⟨.int, toString number⟩, .mark .rparen] := by
    have spelled := Spells.cons (Token.wellFormed_numeral number) apart closing
    rwa [← String.toList_append] at spelled
  rw [tokenize_append, opening, show tokenize _ = _ from numeral.all_eq]
  · rfl
  · rw [opening]
    rintro last isLast char
    cases isLast
    rfl

/-- The call of the function, as it is read. -/
def call (number : Nat) : Expr :=
  .call (.mark .lparen) f [.int ⟨.int, toString number⟩ (Int64.ofNat number)]

theorem parse_call {number : Nat} (inRange : number < 2 ^ 63) :
    Program.parse ("f(" ++ (toString number ++ ")")) =
      .ok ⟨[.expr (.word "f") (call number)]⟩ := by
  have argument : Grammar.Expression .chain 1 [⟨.int, toString number⟩, .mark .rparen]
      (.int ⟨.int, toString number⟩ (Int64.ofNat number)) [.mark .rparen] := by
    have token : Decimal.value (toString number).toList < Nat.pow 2 63 := by
      rw [Decimal.value_toString]
      exact inRange
    have expression := @Grammar.Expression.ofValue ⟨.int, toString number⟩ [.mark .rparen] rfl token
    rwa [Decimal.value_toString] at expression
  have arguments : Grammar.Arguments 1 [⟨.int, toString number⟩, .mark .rparen]
      [.int ⟨.int, toString number⟩ (Int64.ofNat number)] [] :=
    .some (.one (argument.loosen (by decide))) rfl
  have expression : Grammar.Expression .chain 2
      [.word "f", .mark .lparen, ⟨.int, toString number⟩, .mark .rparen] (call number) [] :=
    .call rfl (.name rfl) arguments
  have derived : Grammar.Derives 3 (tokenize ("f(" ++ (toString number ++ ")")))
      ⟨[.expr (.word "f") (call number)]⟩ := by
    rw [tokenize_call]
    exact .cons (.expr (expression.loosen (by decide)) (.greedy rfl)) .nil
  exact Program.parse_eq_ok_iff.2 (Program.read_of_derives (by decide) derived)

theorem eval_call {enter : Enter} {store : Store} {scope : ScopeId}
    (bound : store.get? scope "f" = some (.function closure)) (number : Nat) :
    (call number).eval enter scope store =
      enter closure [.int (Int64.ofNat number)] store :=
  Eval.bind_of_ok (eval_f bound)

theorem run_call {number : Nat} (inRange : number < 2 ^ 63) :
    (session.run ("f(" ++ (toString number ++ ")"))).1 =
      if number < callLimit then .ok (some (.int 0))
      else .error (.faulty (.stackOverflow callLimit)) := by
  have defined : Defined session.store := by
    rw [session_eq]
    exact ⟨_, rfl, rfl⟩
  have bound : session.store.get? session.globals "f" = some (.function closure) := by
    rcases defined with ⟨_, isScope, found⟩
    have isGlobal : session.globals = 0 := by rw [session_eq]
    rw [isGlobal]
    exact Store.get?_of_bound isScope found
  have value : (Int64.ofNat number).toInt = number := Int64.toInt_ofNat_of_lt inRange
  have ended := @enter_closure callLimit _ (Int64.ofNat number) defined (by omega)
  simp only [value, Int.ofNat_lt] at ended
  rcases done : Closure.enter callLimit closure [.int (Int64.ofNat number)] session.store with
    ⟨outcome, after⟩
  rw [done] at ended
  rw [Session.run_of_parse (parse_call inRange)]
  simp only [Session.evalProgram, Program.evalIn, Eval.settle, evalStmts_singleton, Stmt.eval,
    eval_call bound, done]
  by_cases small : number < callLimit
  · rw [if_pos small] at ended ⊢
    subst ended
    rfl
  · rw [if_neg small] at ended ⊢
    subst ended
    rfl

theorem interpret_source {number : Nat} (inRange : number < 2 ^ 63) :
    interpret (source number) =
      if number < callLimit then .ok (some (.int 0))
      else .error (.faulty (.stackOverflow callLimit)) := by
  have ends : Grammar.EndsInSemicolon (tokenize definition) :=
    ⟨.mark .semicolon, by decide, by decide +kernel⟩
  have completes : program.CompletesIn Session.new := ⟨.null, session.store, rfl⟩
  have nonempty : Program.parse ("f(" ++ (toString number ++ ")")) ≠ .ok ⟨[]⟩ := by
    rw [parse_call inRange]
    simp
  have joined := Session.run_append parse_definition ends (by decide +kernel) nonempty completes
  rw [Session.run_snd_of_parse parse_definition] at joined
  rw [interpret, source, String.append_assoc, String.append_assoc]
  exact joined.trans (run_call inRange)

end Countdown

/-- With fewer calls being evaluated the outcome and the store are the same, unless there is an
overflow; and an overflow with fewer calls is one with more of them. -/
def OnlyAborts (evaluation : Enter → Eval Value) : Prop :=
  ∀ {lower depth : Nat}, lower ≤ depth → ∀ store,
    ((evaluation (Closure.enterAt depth) store).1 ≠ Eval.overflow →
      evaluation (Closure.enterAt lower) store = evaluation (Closure.enterAt depth) store) ∧
    ((evaluation (Closure.enterAt lower) store).1 = Eval.overflow →
      (evaluation (Closure.enterAt depth) store).1 = Eval.overflow)

theorem onlyAborts_of_approximates {evaluation : Enter → Eval Value}
    (approximates : ∀ {room more : Nat}, room ≤ more →
      (evaluation (Closure.enter room)).Approximates (evaluation (Closure.enter more))) :
    OnlyAborts evaluation := by
  intro lower depth le store
  have approximates : (evaluation (Closure.enterAt depth)).Approximates
      (evaluation (Closure.enterAt lower)) := approximates (by omega)
  constructor
  · intro noOverflow
    rcases approximates store with overflows | same
    · exact absurd overflows noOverflow
    · exact same
  · exact approximates.overflow_of_other

/-- The call limit never changes an answer, it only aborts. The limit is exact: counting down from
255 ends at zero, and counting down from any larger number overflows. -/
theorem callLimit_only_aborts :
    (∀ (expr : Expr) (scope : ScopeId), OnlyAborts (expr.eval · scope)) ∧
    (∀ (stmts : List Stmt) (scope : ScopeId) (last : Value),
      OnlyAborts (evalStmts · scope last stmts)) ∧
    ∀ number < 2 ^ 63, interpret (Countdown.source number) =
      if number ≤ 255 then .ok (some (.int 0)) else .error (.faulty (.stackOverflow 256)) := by
  refine ⟨?_, ?_, ?_⟩
  · intro expr scope
    apply onlyAborts_of_approximates
    intro room more le
    exact expr.approximates_eval le scope
  · intro stmts scope last
    apply onlyAborts_of_approximates
    intro room more le
    exact approximates_evalStmts le scope last stmts
  · intro number inRange
    rw [Countdown.interpret_source inRange]
    simp only [callLimit, Nat.lt_succ_iff]

/-- Counting down from three takes four calls. With 252 calls being evaluated they are the last ones
that the limit allows. -/
theorem callLimit_only_aborts_countdown :
    let evaluation := fun depth => (Countdown.call 3).eval (Closure.enterAt depth)
      Countdown.session.globals Countdown.session.store
    (evaluation 252).1 = .ok (.int 0) ∧ evaluation 7 = evaluation 252 ∧
      (evaluation 253).1 = Eval.overflow ∧
      interpret (Countdown.source 255) = .ok (some (.int 0)) ∧
      interpret (Countdown.source 256) = .error (.faulty (.stackOverflow 256)) := by
  intro evaluation
  have counted : (evaluation 252).1 = .ok (.int 0) := by decide +kernel
  have overflows : (evaluation 253).1 = Eval.overflow := by decide +kernel
  have same := callLimit_only_aborts.1 (Countdown.call 3) Countdown.session.globals
    (show 7 ≤ 252 by decide) Countdown.session.store
  refine ⟨counted, same.1 ?_, overflows, ?_, ?_⟩
  · intro overflow
    cases counted.symm.trans overflow
  · simpa using callLimit_only_aborts.2.2 255 (by decide)
  · simpa using callLimit_only_aborts.2.2 256 (by decide)

end Scriptlet
