import Scriptlet.Proofs.Session.FunctionIdentity

/-!
# The text of a function

A function is shown as the literal that it was created from is printed. The two texts are put
together in different ways, but they join the parameters in the same manner, and the body of a
function is the body of the literal. Later on a function is bound to names, looked up, passed to
calls and returned from them, and it is still shown as the literal of its origin.
-/

namespace Scriptlet

theorem commaSeparated_eq_intercalate (items : List String) :
    commaSeparated items = ", ".intercalate items := by
  cases items with
  | nil => rfl
  | cons first rest =>
      rw [commaSeparated]
      induction rest generalizing first with
      | nil => simp
      | cons second rest ih =>
          rw [List.map_cons, String.join_cons, String.intercalate_cons_cons, ← ih,
            String.append_assoc, String.append_assoc]

theorem Closure.display_eq_print (closure : Closure) (token : Token) :
    closure.display = (Expr.function token closure.params closure.body).print := by
  rw [Closure.display, Expr.print, commaSeparated_eq_intercalate]

/-- A function is shown as the literal that the evaluation at its origin is one of. -/
theorem Marked.Stems.display_eq_print {trace : Trace} {marked : Marked} {closure : Closure}
    (stems : marked.Stems trace) (isFunction : marked.value = .function closure) :
    ∃ number event token params body, marked.origin = some number ∧
      trace.events[number]? = some event ∧ event.result = marked ∧
      event.expr = .function token params body ∧ marked.value.display = event.expr.print := by
  rcases stems.literal isFunction with ⟨number, token, store, isOrigin, found⟩
  refine ⟨number, _, token, _, _, isOrigin, found, rfl, rfl, ?_⟩
  rw [isFunction]
  exact closure.display_eq_print token

/-- Every function literal, with any tokens, parameters and body, evaluates in every scope to a
function that is shown as the literal is printed. Tracing a session changes neither its answers nor
the values of its names. And every function that was met, as the value of an expression or of a name
or as an answer, has for its origin an evaluation of a literal that came to this very function, and
it is shown as this literal is printed, however it was passed on from there. -/
theorem Session.functions_print_literals :
    (∀ (enter : Enter) (scope : ScopeId) (store : Store) (token : Token) (params : List Ident)
      (body : Block), ∃ value after,
        (Expr.function token params body).eval enter scope store = (.ok value, after) ∧
          value.display = (Expr.function token params body).print) ∧
    ∀ inputs : List Input,
      let answers := (Trace.new.evalInputs inputs).1
      let trace := (Trace.new.evalInputs inputs).2
      Session.new.evalInputs inputs = (answers.map (Except.map Marked.value), trace.session) ∧
        (∀ scope name, (trace.get? scope name).map Marked.value =
          trace.session.store.get? scope name) ∧
        ∀ marked, trace.Meets answers marked →
          ∀ closure, marked.value = .function closure →
            ∃ number event token params body, marked.origin = some number ∧
              trace.events[number]? = some event ∧ event.result = marked ∧
              event.expr = .function token params body ∧
              marked.value.display = event.expr.print := by
  constructor
  · intro enter scope store token params body
    exact ⟨_, _, rfl, Closure.display_eq_print _ token⟩
  · intro inputs answers trace
    rcases Trace.sound_new.evalInputs inputs with ⟨sound, _, same, stem⟩
    refine ⟨same, trace.map_value_get?, ?_⟩
    intro marked meets closure isFunction
    exact (sound.stems_of_meets stem meets).display_eq_print isFunction

/-- A function that returns its argument through a `let` and two blocks, given functions with two
parameters and with none. -/
theorem Session.functions_print_literals_passed :
    let inputs := [
      "let pass = fn(f) \x7b \x7b let kept = f; \x7b return kept \x7d \x7d \x7d; "
        ++ "let sum = fn(x, y) \x7b x + y \x7d",
      "pass(sum)", "pass(fn() \x7b return 1; \x7d)"].map fun source =>
        Input.program (Program.read source).1
    let answers := (Session.new.evalInputs inputs).1
    ∃ sum constant, answers[1]? = some (.ok sum) ∧ sum.display = "fn(x, y)\x7b(x + y)\x7d" ∧
      answers[2]? = some (.ok constant) ∧ constant.display = "fn()\x7breturn 1;\x7d" := by
  intro inputs answers
  rcases functions_print_literals.2 inputs with ⟨same, _, prints⟩
  -- One evaluation for the origins of the answers and for the literals that are found there.
  have evaluated : (Trace.new.evalInputs inputs).1.map (fun answer => answer.toOption.map
      fun marked => (marked.value.type, marked.origin)) =
        [some (.null, none), some (.function, some 1), some (.function, some 8)] ∧
      ((Trace.new.evalInputs inputs).2.events[1]?.map fun event => event.expr.print) =
        some "fn(x, y)\x7b(x + y)\x7d" ∧
      ((Trace.new.evalInputs inputs).2.events[8]?.map fun event => event.expr.print) =
        some "fn()\x7breturn 1;\x7d" := by
    decide +kernel
  rcases evaluated with ⟨origins, sumPrinted, constantPrinted⟩
  have shown : ∀ (index number : Nat) (text : String),
      [some (.null, none), some (.function, some 1), some (.function, some 8)][index]? =
        some (some (ValueType.function, some number)) →
      ((Trace.new.evalInputs inputs).2.events[number]?.map fun event => event.expr.print) =
        some text →
        ∃ value, answers[index]? = some (.ok value) ∧ value.display = text := by
    intro index number text computed printed
    rw [← origins, List.getElem?_map] at computed
    rcases Option.map_eq_some_iff.1 computed with ⟨_ | ⟨value, origin⟩, isAnswer, isFunction⟩
    · cases isFunction
    · cases value with
      | int | bool | null => cases isFunction
      | function closure =>
          cases isFunction
          have meets : (Trace.new.evalInputs inputs).2.Meets (Trace.new.evalInputs inputs).1
              ⟨.function closure, some number⟩ := .answered (List.mem_of_getElem? isAnswer)
          rcases prints _ meets closure rfl with ⟨_, event, _, _, _, isOrigin, found, _, _, text_eq⟩
          cases isOrigin
          rw [found] at printed
          refine ⟨.function closure, ?_, text_eq.trans (Option.some.inj printed)⟩
          simp [answers, same, isAnswer, Except.map]
  rcases shown 1 1 _ rfl sumPrinted with ⟨sum, isSum, sumText⟩
  rcases shown 2 8 _ rfl constantPrinted with ⟨constant, isConstant, constantText⟩
  exact ⟨sum, constant, isSum, sumText, isConstant, constantText⟩

end Scriptlet
