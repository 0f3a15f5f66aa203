import Scriptlet.Proofs.Eval.Passing
import Scriptlet.Proofs.Eval.Tracing

/-!
# Which functions are equal

A session evaluates programs, statements and expressions one after the other. Whatever it was given,
each evaluation of a function literal came to a function that was unlike all values before it, and a
function that is met later, wherever it was bound, passed to or returned from in the meantime, is
still the one that its literal came to. So functions are equal if they stem from the same evaluation
of a literal and not otherwise.
-/

namespace Scriptlet

namespace Session

/-- What a session can be given to evaluate. -/
inductive Input where
  | program (program : Program)
  | stmt (stmt : Stmt)
  | expr (expr : Expr)

/-- Evaluates what the session is given. -/
def evalInput (session : Session) : Input → Except Fault Value × Session
  | .program program => session.evalProgram program
  | .stmt stmt => session.evalStmt stmt
  | .expr expr => session.evalExpr expr

/-- The answers to several inputs, one after the other, and the session afterwards. -/
def evalInputs (session : Session) : List Input → List (Except Fault Value) × Session
  | [] => ([], session)
  | input :: inputs =>
      let (answer, session) := session.evalInput input
      let (answers, session) := session.evalInputs inputs
      (answer :: answers, session)

end Session

open Session (Input)

namespace Trace

/-- The record of a session that has not evaluated anything. -/
def new : Trace where
  store := Session.new.store

/-- The session that is traced. -/
def session (trace : Trace) : Session := ⟨Session.new.globals, trace.store⟩

/-- Evaluates an input in a session that is traced. -/
def evalInput (trace : Trace) : Input → Except Fault Marked × Trace
  | .program program => Traced.settle (runStmts Traced.interpreter
      (Closure.run Traced.interpreter callLimit) Session.new.globals ⟨.null, none⟩
      program.statements) trace
  | .stmt stmt => Traced.settle (stmt.run Traced.interpreter
      (Closure.run Traced.interpreter callLimit) Session.new.globals) trace
  | .expr expr => Traced.settle (expr.run Traced.interpreter
      (Closure.run Traced.interpreter callLimit) Session.new.globals) trace

/-- The answers to several inputs, one after the other, and the record afterwards. -/
def evalInputs (trace : Trace) : List Input → List (Except Fault Marked) × Trace
  | [] => ([], trace)
  | input :: inputs =>
      let (answer, trace) := trace.evalInput input
      let (answers, trace) := trace.evalInputs inputs
      (answer :: answers, trace)

/-- A value that was met: an expression came to it, a name has it, or it was an answer. -/
inductive Meets (trace : Trace) (answers : List (Except Fault Marked)) (marked : Marked) : Prop
  | evaluated {number : Nat} {event : Event} (found : trace.events[number]? = some event)
      (same : event.result = marked)
  | named {scope : ScopeId} {name : String} (found : trace.get? scope name = some marked)
  | answered (answer_mem : .ok marked ∈ answers)

theorem sound_new : Trace.new.Sound := by
  refine ⟨?_, by simp [Trace.new], by simp [Trace.new], by simp [Trace.new]⟩
  intro id scope found
  rcases Store.getElem?_push_eq_some found with older | ⟨_, rfl⟩
  · simp [Store.empty] at older
  · exact Scope.stems_empty _ none

variable {trace : Trace}

/-- What one input does to the session and to the record of it. -/
theorem Sound.evalInput (sound : trace.Sound) (input : Input) :
    (trace.evalInput input).2.Sound ∧ trace.Grows (trace.evalInput input).2 ∧
      trace.session.evalInput input =
        ((trace.evalInput input).1.map Marked.value, (trace.evalInput input).2.session) ∧
      ∀ marked, (trace.evalInput input).1 = .ok marked →
        marked.Stems (trace.evalInput input).2 := by
  have lawful := Traced.lawful_following
  cases input with
  | program program =>
      have ends := ends_runStmts lawful callLimit program.statements ⟨sound, rfl⟩
        (fun _ _ => Eq.refl Session.new.globals) (Marked.marks_null trace)
      rw [runStmts_eq_evalStmts] at ends
      rcases Traced.settle_of_ends ends with ⟨soundAfter, grows, same, stems⟩
      refine ⟨soundAfter, grows, ?_, stems⟩
      simp [Session.evalInput, Session.evalProgram, Program.evalIn, session, same, Trace.evalInput]
  | stmt stmt =>
      have ends := stmt.ends_run lawful callLimit ⟨sound, rfl⟩ (Eq.refl Session.new.globals)
      rw [Stmt.run_eq_eval] at ends
      rcases Traced.settle_of_ends ends with ⟨soundAfter, grows, same, stems⟩
      refine ⟨soundAfter, grows, ?_, stems⟩
      simp [Session.evalInput, Session.evalStmt, Stmt.evalIn, session, same, Trace.evalInput]
  | expr expr =>
      have ends := expr.ends_run lawful callLimit ⟨sound, rfl⟩ (Eq.refl Session.new.globals)
      rw [Expr.run_eq_eval] at ends
      rcases Traced.settle_of_ends ends with ⟨soundAfter, grows, same, stems⟩
      refine ⟨soundAfter, grows, ?_, stems⟩
      simp [Session.evalInput, Session.evalExpr, Expr.evalIn, session, same, Trace.evalInput]

/-- What a list of inputs does, step by step. -/
theorem Sound.evalInputs (sound : trace.Sound) (inputs : List Input) :
    (trace.evalInputs inputs).2.Sound ∧ trace.Grows (trace.evalInputs inputs).2 ∧
      trace.session.evalInputs inputs =
        ((trace.evalInputs inputs).1.map (Except.map Marked.value),
          (trace.evalInputs inputs).2.session) ∧
      ∀ marked, .ok marked ∈ (trace.evalInputs inputs).1 →
        marked.Stems (trace.evalInputs inputs).2 := by
  induction inputs generalizing trace with
  | nil => exact ⟨sound, .refl trace, rfl, by simp [Trace.evalInputs]⟩
  | cons input inputs ih =>
      rcases sound.evalInput input with ⟨soundMiddle, grows, same, stems⟩
      rcases ih soundMiddle with ⟨soundAfter, more, sameRest, stem⟩
      refine ⟨soundAfter, grows.trans more, ?_, ?_⟩
      · simp [Session.evalInputs, same, sameRest, Trace.evalInputs]
      · intro marked answer_mem
        rcases List.mem_cons.1 answer_mem with first | rest
        · exact (stems marked first.symm).mono more
        · exact stem marked rest

theorem Sound.stems_of_meets (sound : trace.Sound) {answers : List (Except Fault Marked)}
    (stem : ∀ marked, .ok marked ∈ answers → marked.Stems trace) {marked : Marked}
    (meets : trace.Meets answers marked) : marked.Stems trace := by
  cases meets with
  | evaluated found same =>
      subst same
      exact sound.stems found
  | named found => exact sound.stems_get? found
  | answered answer_mem => exact stem marked answer_mem

end Trace

/-- Equality of values is an equivalence relation. Tracing a session changes neither its answers nor
the values of its names. Each evaluation of a literal came to a function that is unlike the values
of all earlier evaluations and all values bound in any scope at that moment. All functions that were
met are those that the literals they stem from came to, and two of them are equal exactly if they
stem from the same evaluation. For values do not change on their way: a `let` and a call give them
to names, seen through any number of scopes, and a last expression or a `return` in the body of a
function gives them to the call. -/
theorem Session.functions_identified :
    Equivalence (fun left right : Value => left.equals right = true) ∧
      (∀ inputs : List Input,
        let answers := (Trace.new.evalInputs inputs).1
        let trace := (Trace.new.evalInputs inputs).2
        Session.new.evalInputs inputs = (answers.map (Except.map Marked.value), trace.session) ∧
          (∀ scope name, (trace.get? scope name).map Marked.value =
            trace.session.store.get? scope name) ∧
          (∀ (number : Nat) (event : Event), trace.events[number]? = some event →
            ∀ token params body, event.expr = .function token params body →
              (∃ closure, event.result.value = .function closure ∧ closure.params = params ∧
                closure.body = body) ∧ event.Fresh trace.events number) ∧
          (∀ marked, trace.Meets answers marked → marked.Stems trace) ∧
          ∀ left right, trace.Meets answers left → trace.Meets answers right →
            ∀ first second, left.value = .function first → right.value = .function second →
              (left.value.equals right.value = true ↔ left.origin = right.origin)) ∧
      (∀ room scope store last before earlier middle expr value after,
        evalStmts (Closure.enter room) scope last before store = (.ok earlier, middle) →
          expr.eval (Closure.enter room) scope middle = (.ok value, after) → ∀ token,
          (scope < after.scopes.size → ∀ name : Ident,
            ((Stmt.letBind token name expr).eval (Closure.enter room) scope middle).2.Gives scope
              name.name value) ∧
          (evalStmts (Closure.enter room) scope last (before ++ [.expr token expr])).Yields store
            value after ∧
          ∀ others, (evalStmts (Closure.enter room) scope last
            (before ++ .ret token expr :: others)).Yields store value after) ∧
      (∀ (store : Store) (closure : Closure) (args : List Value) (name : String) (value : Value),
        ((closure.params.map Ident.name).zip args).reverse.lookup name = some value →
          (store.openCall closure args).2.Gives (store.openCall closure args).1 name value) ∧
      ∀ room (store : Store) closure args value after,
        (evalStmts (Closure.enter room) (store.openCall closure args).1 .null
          closure.body.statements).Yields (store.openCall closure args).2 value after →
          Closure.enter (room + 1) closure args store = (.ok value, after) := by
  refine ⟨Value.equivalence_equals, ?_, ?_, ?_, ?_⟩
  · intro inputs answers trace
    rcases Trace.sound_new.evalInputs inputs with ⟨sound, _, same, stem⟩
    have stems : ∀ marked, trace.Meets answers marked → marked.Stems trace :=
      fun marked meets => sound.stems_of_meets stem meets
    refine ⟨same, trace.map_value_get?, ?_, stems, ?_⟩
    · intro number event found token params body isLiteral
      exact ⟨sound.closure_of_literal found isLiteral,
        sound.literal found token params body isLiteral⟩
    · intro left right leftMeets rightMeets first second isFirst isSecond
      exact sound.equals_iff (stems left leftMeets) (stems right rightMeets) isFirst isSecond
  · intro room scope store last before earlier middle expr value after complete done token
    exact ⟨fun isOpen name => Stmt.gives_letBind done isOpen token name,
      yields_append_expr complete done token, yields_append_ret complete done token⟩
  · exact fun store closure args name value last => Store.gives_openCall last
  · exact fun room store closure args value after body => Closure.enter_of_yields body

/-- A function that went through a call, a `let`, two blocks and a `return` is still the one that it
was. The same literal, evaluated twice more in the same scope, comes to two others. -/
theorem Session.functions_identified_passed :
    let inputs := [
      "let pass = fn(f) \x7b \x7b let kept = f; \x7b return kept \x7d \x7d \x7d; "
        ++ "let one = fn(x) \x7b x \x7d",
      "one", "pass(one)", "fn(x) \x7b x \x7d", "fn(x) \x7b x \x7d"].map fun source =>
        Input.program (Program.read source).1
    let answers := (Session.new.evalInputs inputs).1
    ∃ one passed second third, answers[1]? = some (.ok one) ∧ answers[2]? = some (.ok passed) ∧
      answers[3]? = some (.ok second) ∧ answers[4]? = some (.ok third) ∧
      one.equals passed = true ∧ one.equals second = false ∧ second.equals third = false := by
  intro inputs answers
  rcases functions_identified.2.1 inputs with ⟨same, _, _, stems, equals_iff⟩
  have origins : (Trace.new.evalInputs inputs).1.map (·.toOption.bind Marked.origin) =
      [none, some 1, some 1, some 8, some 9] := by decide +kernel
  have answered : ∀ index number : Nat,
      [none, some 1, some 1, some 8, some 9][index]? = some (some number) →
        ∃ marked closure, answers[index]? = some (.ok marked.value) ∧
          (Trace.new.evalInputs inputs).2.Meets (Trace.new.evalInputs inputs).1 marked ∧
          marked.origin = some number ∧ marked.value = .function closure := by
    intro index number computed
    rw [← origins, List.getElem?_map] at computed
    rcases Option.map_eq_some_iff.1 computed with ⟨_ | marked, isAnswer, isOrigin⟩
    · cases isOrigin
    · have meets : (Trace.new.evalInputs inputs).2.Meets (Trace.new.evalInputs inputs).1 marked :=
        .answered (List.mem_of_getElem? isAnswer)
      rcases (stems marked meets).exists_closure isOrigin with ⟨closure, isFunction⟩
      refine ⟨marked, closure, ?_, meets, isOrigin, isFunction⟩
      simp [answers, same, isAnswer, Except.map]
  rcases answered 1 1 rfl with ⟨one, _, isOne, meetsOne, fromOne, oneIs⟩
  rcases answered 2 1 rfl with ⟨passed, _, isPassed, meetsPassed, fromPassed, passedIs⟩
  rcases answered 3 8 rfl with ⟨second, _, isSecond, meetsSecond, fromSecond, secondIs⟩
  rcases answered 4 9 rfl with ⟨third, _, isThird, meetsThird, fromThird, thirdIs⟩
  refine ⟨_, _, _, _, isOne, isPassed, isSecond, isThird, ?_, ?_, ?_⟩
  · rw [equals_iff one passed meetsOne meetsPassed _ _ oneIs passedIs, fromOne, fromPassed]
  · rw [← Bool.not_eq_true, equals_iff one second meetsOne meetsSecond _ _ oneIs secondIs, fromOne,
      fromSecond]
    decide
  · rw [← Bool.not_eq_true, equals_iff second third meetsSecond meetsThird _ _ secondIs thirdIs,
      fromSecond, fromThird]
    decide

end Scriptlet
