import Mathlib.Logic.Function.Basic
import Scriptlet.Proofs.Eval.Integrity

/-!
# Where functions come from

The number of a function tells it apart from others, but it does not say by itself which evaluation
of a literal the function stems from. For that, evaluation is traced. Beside the store it then keeps
a record of all evaluations of expressions that came to a value, and a value goes everywhere
together with its origin: for a function the place in the record of the evaluation that created it.
A `let` and a call bind names to values with their origins, a name is looked up with the origin, and
a `return` carries it outward. The number of the function plays no part in this.

A record is sound when each function stems from the evaluation of a literal that came to this very
function, and when such a function was unlike all values that were there before. In a sound record
functions are equal exactly if they have the same origin.
-/

namespace Scriptlet

/-- A value with its origin, which only functions have. -/
structure Marked where
  value : Value
  /-- The place in the record of the evaluation that created the function. -/
  origin : Option Nat := none

/-- The evaluation of an expression that came to a value. -/
structure Event where
  expr : Expr
  result : Marked
  /-- The store at the moment the value is there. -/
  store : Store

/-- A store, and what was recorded of the evaluations that led to it. -/
structure Trace where
  store : Store
  /-- The origins of the values that the names in each scope are bound to. -/
  origins : ScopeId → String → Option Nat := fun _ _ => none
  /-- All evaluations of expressions that came to a value, in this order. -/
  events : Array Event := #[]

namespace Trace

/-- The value of a name as seen from a scope, with the origin from the scope that binds it. -/
def get? (trace : Trace) (scope : ScopeId) (name : String) : Option Marked :=
  match trace.store.scopes[scope]? with
  | none => none
  | some found =>
      match found.find? name with
      | some value => some ⟨value, trace.origins scope name⟩
      | none =>
          match found.outer with
          | none => none
          | some outer => if outer < scope then trace.get? outer name else none
termination_by scope

/-- Adds a scope whose names have these origins. -/
def push (trace : Trace) (scope : Scope) (origins : String → Option Nat) : ScopeId × Trace :=
  let (id, store) := trace.store.push scope
  (id, { trace with store, origins := Function.update trace.origins id origins })

/-- Binds a name in a scope, with the origin of its value. -/
def set (trace : Trace) (scope : ScopeId) (name : String) (marked : Marked) : Trace :=
  { trace with
    store := trace.store.set scope name marked.value
    origins := Function.update trace.origins scope
      (Function.update (trace.origins scope) name marked.origin) }

/-- Creates a function. Its origin is the evaluation that is recorded next. -/
def newFunction (trace : Trace) (params : List Ident) (body : Block) (scope : ScopeId) :
    Marked × Trace :=
  let (value, store) := trace.store.newFunction params body scope
  (⟨value, some trace.events.size⟩, { trace with store })

/-- Opens the scope for a call, with the parameters bound to the arguments and their origins. -/
def openCall (trace : Trace) (closure : Closure) (args : List Marked) : ScopeId × Trace :=
  let names := closure.params.map Ident.name
  let scope : Scope := { outer := some closure.scope }
  trace.push (scope.bindAll (names.zip (args.map Marked.value)))
    ((names.zip args).foldl (fun origins binding =>
      Function.update origins binding.1 binding.2.origin) fun _ => none)

/-- Records an evaluation. -/
def note (trace : Trace) (expr : Expr) (result : Marked) : Trace :=
  { trace with events := trace.events.push ⟨expr, result, trace.store⟩ }

end Trace

/-- What ends a traced evaluation before it has a result. -/
inductive Halt where
  | returned (marked : Marked)
  | failed (fault : Fault)

/-- Evaluations that are traced. -/
abbrev Traced := Execution Trace Halt

/-- Runs a traced evaluation to its end. A `return` that nothing catches ends it with its value. -/
def Traced.settle (traced : Traced Marked) (trace : Trace) : Except Fault Marked × Trace :=
  match traced trace with
  | (.ok marked, trace) | (.error (.returned marked), trace) => (.ok marked, trace)
  | (.error (.failed fault), trace) => (.error fault, trace)

/-- The interpreter that traces. It records every expression that comes to a value. -/
def Traced.interpreter : Interpreter Trace Halt Marked ScopeId where
  value := Marked.value
  plain value := ⟨value, none⟩
  below _ scope := scope
  visit _ _ trace := trace
  leave
    | .expr expr, result, trace => trace.note expr result
    | .stmt _, _, trace | .block _, _, trace => trace
  lookup scope name trace := trace.get? scope name
  newFunction scope params body trace := trace.newFunction params body scope
  bindName scope name marked trace := trace.set scope name marked
  openInside scope trace := trace.push { outer := some scope } fun _ => none
  openCall closure args trace := trace.openCall closure args
  returned := .returned
  failed := .failed
  returned?
    | .returned marked => some marked
    | .failed _ => none
  returned?_returned _ := rfl
  returned?_failed _ := rfl

/-! ## Equality of values -/

namespace Value

theorem equals_refl : (value : Value) → value.equals value = true
  | .int _ | .bool _ | .function _ => decide_eq_true rfl
  | .null => rfl

theorem equals_symm : {left right : Value} → left.equals right = true → right.equals left = true
  | .int _, .int _, same | .bool _, .bool _, same | .function _, .function _, same =>
      decide_eq_true (of_decide_eq_true same).symm
  | .null, .null, _ => rfl

theorem equals_trans : {left middle right : Value} → left.equals middle = true →
    middle.equals right = true → left.equals right = true
  | .int _, .int _, .int _, first, second | .bool _, .bool _, .bool _, first, second
  | .function _, .function _, .function _, first, second =>
      decide_eq_true ((of_decide_eq_true first).trans (of_decide_eq_true second))
  | .null, .null, .null, _, _ => rfl

theorem equivalence_equals : Equivalence fun left right : Value => left.equals right = true :=
  ⟨equals_refl, equals_symm, equals_trans⟩

/-- A function is unlike all values that are no functions, and unlike all older functions. -/
theorem equals_function_eq_false {closure : Closure} {value : Value}
    (older : ∀ other, value = .function other → other.id < closure.id) :
    (Value.function closure).equals value = false := by
  cases value with
  | function other => exact decide_eq_false (Nat.ne_of_gt (older other rfl))
  | int | bool | null => rfl

end Value

/-! ## Sound records -/

/-- The origin of a function is the evaluation of a literal, from which the function has its
parameters and its body, and the evaluation came to this function. Other values have no origin. -/
def Marked.Stems (trace : Trace) (marked : Marked) : Prop :=
  match marked.value with
  | .function closure => ∃ number token store, marked.origin = some number ∧
      trace.events[number]? = some ⟨.function token closure.params closure.body, marked, store⟩
  | .int _ | .bool _ | .null => marked.origin = none

/-- The values that the names in a scope are bound to stem from the record. -/
def Scope.Stems (trace : Trace) (scope : Scope) (origins : String → Option Nat) : Prop :=
  ∀ name value, scope.find? name = some value → Marked.Stems trace ⟨value, origins name⟩

/-- The value of this evaluation is the origin of itself, and it is unlike the values of all earlier
evaluations and all values that names are bound to at this moment. -/
structure Event.Fresh (events : Array Event) (number : Nat) (event : Event) : Prop where
  origin : event.result.origin = some number
  earlier : ∀ other < number, ∀ older, events[other]? = some older →
    event.result.value.equals older.result.value = false
  bound : ∀ (id : ScopeId) (scope : Scope), event.store.scopes[id]? = some scope →
    ∀ name value, scope.find? name = some value → event.result.value.equals value = false

namespace Trace

/-- All that was recorded is still there, in its place. -/
def Grows (before after : Trace) : Prop :=
  ∀ (number : Nat) (event : Event), before.events[number]? = some event →
    after.events[number]? = some event

/-- All values stem from the record, functions are counted, and literals came to fresh ones. -/
structure Sound (trace : Trace) : Prop where
  bound : ∀ {id : ScopeId} {scope : Scope}, trace.store.scopes[id]? = some scope →
    scope.Stems trace (trace.origins id)
  stems : ∀ {number : Nat} {event : Event}, trace.events[number]? = some event →
    event.result.Stems trace
  counted : ∀ {number : Nat} {event : Event}, trace.events[number]? = some event →
    ∀ closure, event.result.value = .function closure → closure.id < trace.store.functions
  literal : ∀ {number : Nat} {event : Event}, trace.events[number]? = some event →
    ∀ token params body, event.expr = .function token params body → event.Fresh trace.events number

theorem Grows.refl (trace : Trace) : trace.Grows trace :=
  fun _ _ => id

theorem Grows.trans {before middle after : Trace} (first : before.Grows middle)
    (second : middle.Grows after) : before.Grows after :=
  fun number event found => second number event (first number event found)

end Trace

theorem Marked.Stems.mono {marked : Marked} {trace larger : Trace} (stems : marked.Stems trace)
    (grows : trace.Grows larger) : marked.Stems larger := by
  rcases marked with ⟨_ | _ | _ | closure, origin⟩
  case function =>
    rcases stems with ⟨number, token, store, isOrigin, found⟩
    exact ⟨number, token, store, isOrigin, grows _ _ found⟩
  all_goals exact stems

theorem Marked.Stems.literal {marked : Marked} {trace : Trace} {closure : Closure}
    (stems : marked.Stems trace) (isFunction : marked.value = .function closure) :
    ∃ number token store, marked.origin = some number ∧
      trace.events[number]? =
        some ⟨.function token closure.params closure.body, marked, store⟩ := by
  rwa [Marked.Stems, isFunction] at stems

/-- What has an origin is a function. -/
theorem Marked.Stems.exists_closure {marked : Marked} {trace : Trace} (stems : marked.Stems trace)
    {number : Nat} (isOrigin : marked.origin = some number) :
    ∃ closure, marked.value = .function closure := by
  cases isFunction : marked.value with
  | function closure => exact ⟨closure, rfl⟩
  | int | bool | null =>
      simp only [Marked.Stems, isFunction] at stems
      cases stems.symm.trans isOrigin

theorem Marked.stems_of_plain {value : Value} {trace : Trace} (plain : value.Plain) :
    Marked.Stems trace ⟨value, none⟩ := by
  cases value with
  | function closure => exact absurd plain id
  | int | bool | null => rfl

namespace Scope

variable {trace larger : Trace} {scope : Scope} {origins : String → Option Nat}

theorem stems_empty (trace : Trace) (outer : Option ScopeId) :
    Scope.Stems trace { outer } fun _ => none := by
  simp [Scope.Stems, Scope.find?]

theorem Stems.mono (stems : scope.Stems trace origins) (grows : trace.Grows larger) :
    scope.Stems larger origins :=
  fun name value found => (stems name value found).mono grows

theorem Stems.bind (stems : scope.Stems trace origins) {marked : Marked}
    (new : marked.Stems trace) (name : String) :
    (scope.bind name marked.value).Stems trace (Function.update origins name marked.origin) := by
  intro other value found
  by_cases same : other = name
  · subst same
    rw [find?_bind_self] at found
    cases found
    rwa [Function.update_self]
  · rw [find?_bind_of_ne scope marked.value same] at found
    rw [Function.update_of_ne same]
    exact stems other value found

theorem Stems.bindAll (stems : scope.Stems trace origins) {names : List String}
    {args : List Marked} (new : ∀ arg ∈ args, arg.Stems trace) :
    (scope.bindAll (names.zip (args.map Marked.value))).Stems trace
      ((names.zip args).foldl (fun origins binding =>
        Function.update origins binding.1 binding.2.origin) origins) := by
  induction names generalizing scope origins args with
  | nil => exact stems
  | cons name names ih =>
      cases args with
      | nil => exact stems
      | cons arg args =>
          rw [List.forall_mem_cons] at new
          exact ih (stems.bind new.1 name) new.2

end Scope

namespace Trace

variable {trace : Trace} {scope : ScopeId} {name : String}

/-- Forgetting the origin leaves the value that the store has for the name. -/
theorem map_value_get? (trace : Trace) (scope : ScopeId) (name : String) :
    (trace.get? scope name).map Marked.value = trace.store.get? scope name := by
  induction scope using Nat.strongRecOn with
  | _ scope ih =>
      rw [Trace.get?, Store.get?]
      cases trace.store.scopes[scope]? with
      | none => rfl
      | some found =>
          dsimp only
          cases found.find? name with
          | some value => rfl
          | none =>
              dsimp only
              cases found.outer with
              | none => rfl
              | some outer =>
                  dsimp only
                  split
                  · next older => exact ih outer older
                  · rfl

theorem Sound.stems_get? (sound : trace.Sound) {marked : Marked}
    (found : trace.get? scope name = some marked) : marked.Stems trace := by
  induction scope using Nat.strongRecOn with
  | _ scope ih =>
      rw [Trace.get?] at found
      split at found
      · cases found
      · next isScope =>
          split at found
          · next bound =>
              cases found
              exact sound.bound isScope _ _ bound
          · split at found
            · cases found
            · split at found
              · next older => exact ih _ older found
              · cases found

theorem Sound.id_lt (sound : trace.Sound) {marked : Marked} (stems : marked.Stems trace)
    (closure : Closure) (isFunction : marked.value = .function closure) :
    closure.id < trace.store.functions := by
  rcases stems.literal isFunction with ⟨number, token, store, _, found⟩
  exact sound.counted found closure isFunction

theorem Sound.push (sound : trace.Sound) {new : Scope} {origins : String → Option Nat}
    (stems : new.Stems trace origins) : (trace.push new origins).2.Sound := by
  refine ⟨?_, sound.stems, sound.counted, sound.literal⟩
  intro id scope found
  simp only [Trace.push]
  rcases Store.getElem?_push_eq_some found with older | ⟨rfl, rfl⟩
  · have distinct : id ≠ trace.store.scopes.size :=
      Nat.ne_of_lt (Array.getElem?_eq_some_iff.1 older).1
    rw [Store.push, Function.update_of_ne distinct]
    exact sound.bound older
  · rw [Store.push, Function.update_self]
    exact stems

theorem Sound.set (sound : trace.Sound) {marked : Marked} (stems : marked.Stems trace)
    (scope : ScopeId) (name : String) : (trace.set scope name marked).Sound := by
  refine ⟨?_, sound.stems, sound.counted, sound.literal⟩
  intro id bound found
  simp only [Trace.set, Store.set, Array.getElem?_modify] at found ⊢
  by_cases same : scope = id
  · subst same
    rw [if_pos rfl] at found
    rcases Option.map_eq_some_iff.1 found with ⟨old, oldFound, rfl⟩
    rw [Function.update_self]
    exact (sound.bound oldFound).bind stems name
  · rw [if_neg same] at found
    rw [Function.update_of_ne (Ne.symm same)]
    exact sound.bound found

theorem getElem?_note_eq_some {expr : Expr} {result : Marked} {number : Nat} {event : Event}
    (found : (trace.note expr result).events[number]? = some event) :
    trace.events[number]? = some event ∨
      number = trace.events.size ∧ event = ⟨expr, result, trace.store⟩ := by
  simp only [Trace.note, Array.getElem?_push] at found
  split at found
  · next atEnd => exact .inr ⟨atEnd, (Option.some.inj found).symm⟩
  · exact .inl found

theorem getElem?_note_self (trace : Trace) (expr : Expr) (result : Marked) :
    (trace.note expr result).events[trace.events.size]? = some ⟨expr, result, trace.store⟩ := by
  simp [Trace.note]

theorem grows_note (trace : Trace) (expr : Expr) (result : Marked) :
    trace.Grows (trace.note expr result) := by
  intro number event found
  have inside : number < trace.events.size := (Array.getElem?_eq_some_iff.1 found).1
  simpa [Trace.note, Array.getElem?_push, Nat.ne_of_lt inside] using found

/-- What is recorded later does not change what was there before. -/
theorem fresh_note {number : Nat} {event : Event} (fresh : event.Fresh trace.events number)
    (inside : number ≤ trace.events.size) (expr : Expr) (result : Marked) :
    event.Fresh (trace.note expr result).events number := by
  refine ⟨fresh.origin, ?_, fresh.bound⟩
  intro other less older found
  rcases getElem?_note_eq_some found with there | ⟨rfl, _⟩
  · exact fresh.earlier other less older there
  · exact absurd less (Nat.not_lt_of_ge inside)

/-- What is to be known of an evaluation that is recorded. -/
theorem Sound.note (sound : trace.Sound) {expr : Expr} {result : Marked}
    (stems : result.Stems (trace.note expr result))
    (counted : ∀ closure, result.value = .function closure → closure.id < trace.store.functions)
    (literal : ∀ token params body, expr = .function token params body →
      Event.Fresh trace.events trace.events.size ⟨expr, result, trace.store⟩) :
    (trace.note expr result).Sound := by
  have grows := trace.grows_note expr result
  constructor
  · exact fun found => (sound.bound found).mono grows
  · intro number event found
    rcases getElem?_note_eq_some found with older | ⟨rfl, rfl⟩
    · exact (sound.stems older).mono grows
    · exact stems
  · intro number event found
    rcases getElem?_note_eq_some found with older | ⟨rfl, rfl⟩
    · exact sound.counted older
    · exact counted
  · intro number event found token params body isLiteral
    rcases getElem?_note_eq_some found with older | ⟨rfl, rfl⟩
    · have inside : number < trace.events.size := (Array.getElem?_eq_some_iff.1 older).1
      exact fresh_note (sound.literal older token params body isLiteral) (Nat.le_of_lt inside) _ _
    · exact fresh_note (literal token params body isLiteral) (Nat.le_refl _) _ _

/-- The value of a literal is a fresh function. -/
theorem Sound.create (sound : trace.Sound) (token : Token) (params : List Ident) (body : Block)
    (scope : ScopeId) :
    ((trace.newFunction params body scope).2.note (.function token params body)
      (trace.newFunction params body scope).1).Sound := by
  have counted : (trace.newFunction params body scope).2.Sound :=
    ⟨sound.bound, sound.stems,
      fun found closure isFunction => Nat.lt_succ_of_lt (sound.counted found closure isFunction),
      sound.literal⟩
  apply counted.note
  · exact ⟨trace.events.size, token, _, rfl, getElem?_note_self _ _ _⟩
  · rintro closure ⟨⟩
    exact Nat.lt_succ_self _
  · intro _ _ _ _
    refine ⟨rfl, ?_, ?_⟩
    · intro other _ older found
      exact Value.equals_function_eq_false (sound.counted found)
    · intro id bound found name value isBound
      exact Value.equals_function_eq_false (sound.id_lt (sound.bound found name value isBound))

theorem Sound.closure_of_literal (sound : trace.Sound) {number : Nat} {event : Event}
    (found : trace.events[number]? = some event) {token : Token} {params : List Ident}
    {body : Block} (isLiteral : event.expr = .function token params body) :
    ∃ closure, event.result.value = .function closure ∧ closure.params = params ∧
      closure.body = body := by
  have origin := (sound.literal found token params body isLiteral).origin
  rcases (sound.stems found).exists_closure origin with ⟨closure, isFunction⟩
  rcases (sound.stems found).literal isFunction with ⟨other, _, _, isOther, foundOther⟩
  cases isOther.symm.trans origin
  have sameEvent := Option.some.inj (found.symm.trans foundOther)
  rw [sameEvent] at isLiteral
  cases isLiteral
  exact ⟨closure, isFunction, rfl, rfl⟩

/-- Two functions are equal exactly if they have the same origin. -/
theorem Sound.equals_iff (sound : trace.Sound) {left right : Marked} {first second : Closure}
    (leftStems : left.Stems trace) (rightStems : right.Stems trace)
    (isFirst : left.value = .function first) (isSecond : right.value = .function second) :
    left.value.equals right.value = true ↔ left.origin = right.origin := by
  rcases leftStems.literal isFirst with ⟨leftNumber, _, _, leftOrigin, foundLeft⟩
  rcases rightStems.literal isSecond with ⟨rightNumber, _, _, rightOrigin, foundRight⟩
  rw [leftOrigin, rightOrigin]
  constructor
  · intro same
    -- the later one of two evaluations comes to a function that is unlike the earlier one
    rcases Nat.lt_trichotomy leftNumber rightNumber with less | rfl | greater
    · have unlike := (sound.literal foundRight _ _ _ rfl).earlier leftNumber less _ foundLeft
      exact absurd (Value.equals_symm same) (by simp [unlike])
    · rfl
    · have unlike := (sound.literal foundLeft _ _ _ rfl).earlier rightNumber greater _ foundRight
      exact absurd same (by simp [unlike])
  · rintro ⟨⟩
    have sameEvent := foundLeft.symm.trans foundRight
    have sameResult : left = right :=
      Option.some.inj (congrArg (Option.map Event.result) sameEvent)
    rw [sameResult]
    exact Value.equals_refl _

end Trace

end Scriptlet
