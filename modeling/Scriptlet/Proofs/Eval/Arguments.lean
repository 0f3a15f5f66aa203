import Scriptlet.Proofs.Eval.Passing

/-!
# Binding arguments

The scope of a call lies inside the scope in which the function was created, and there the
parameters are bound to the arguments. Of parameters with the same name the last one counts. All
other names are looked up outward at the moment they are needed. Nothing was copied from the outer
scopes when the function was created or called, so what is bound there later is seen as well.

With another number of arguments nothing happens at all, apart from the fault.
-/

namespace Scriptlet

/-- The parameter with this index has the name, and no later one has it. -/
structure Closure.LastParam (closure : Closure) (name : String) (index : Nat) : Prop where
  named : (closure.params.map Ident.name)[index]? = some name
  last : ∀ later, index < later → (closure.params.map Ident.name)[later]? ≠ some name

theorem lookup_zip_of_not_mem {names : List String} {name : String} (absent : name ∉ names)
    (args : List Value) : (names.zip args).reverse.lookup name = none := by
  rw [List.lookup_eq_none_iff]
  rintro ⟨bound, value⟩ binding_mem
  have bound_mem := (List.of_mem_zip (List.mem_reverse.1 binding_mem)).1
  simpa using fun same : name = bound => absent (same ▸ bound_mem)

theorem lookup_zip_of_last {names : List String} {args : List Value} {name : String} {index : Nat}
    (fits : names.length = args.length) (named : names[index]? = some name)
    (last : ∀ later, index < later → names[later]? ≠ some name) :
    (names.zip args).reverse.lookup name = args[index]? := by
  induction names generalizing args index with
  | nil => cases named
  | cons first names ih =>
      cases args with
      | nil => cases fits
      | cons arg args =>
          rw [List.zip_cons_cons, List.reverse_cons, List.lookup_append]
          cases index with
          | zero =>
              have absent : name ∉ names := by
                intro name_mem
                rcases List.getElem?_of_mem name_mem with ⟨later, isLater⟩
                exact last (later + 1) (Nat.zero_lt_succ later) isLater
              cases named
              simp [lookup_zip_of_not_mem absent]
          | succ index =>
              have rest := ih (Nat.succ.inj fits) named
                fun later less => last (later + 1) (Nat.succ_lt_succ less)
              have inside : index < args.length := by
                have inNames : index + 1 < (first :: names).length :=
                  (List.getElem?_eq_some_iff.1 named).1
                rw [fits] at inNames
                exact Nat.lt_of_succ_lt_succ inNames
              rw [rest, List.getElem?_cons_succ, List.getElem?_eq_getElem inside, Option.some_or]

section Calls

variable {closure : Closure} {args : List Value} {store later : Store} {name : String}

namespace Store

/-- As long as the scope of a call is as it was built, a parameter has the last of its arguments. -/
theorem get?_of_lastParam (fits : closure.params.length = args.length) {index : Nat}
    (param : closure.LastParam name index)
    (kept : later.scopes[(store.openCall closure args).1]? =
      (store.openCall closure args).2.scopes[(store.openCall closure args).1]?) :
    later.get? (store.openCall closure args).1 name = args[index]? := by
  have found := lookup_zip_of_last ((List.length_map _).trans fits) param.named param.last
  have inside : index < args.length := by
    have named := (List.getElem?_eq_some_iff.1 param.named).1
    rwa [List.length_map, fits] at named
  rw [List.getElem?_eq_getElem inside] at found ⊢
  apply get?_of_bound (kept.trans store.getElem?_openCall)
  simp [Scope.find?_bindAll, found]

/-- As long as the scope of a call is as it was built, other names are looked up outward. -/
theorem get?_of_not_mem_params (isOpen : closure.scope < store.scopes.size)
    (absent : name ∉ closure.params.map Ident.name)
    (kept : later.scopes[(store.openCall closure args).1]? =
      (store.openCall closure args).2.scopes[(store.openCall closure args).1]?) :
    later.get? (store.openCall closure args).1 name = later.get? closure.scope name := by
  apply get?_of_outer (kept.trans store.getElem?_openCall) _ (Scope.outer_bindAll _ _) isOpen
  rw [Scope.find?_bindAll, lookup_zip_of_not_mem absent]
  rfl

/-- What is bound in the outer scope after the scope of a call was opened is seen from there. -/
theorem get?_set_of_not_mem_params (isOpen : closure.scope < store.scopes.size)
    (absent : name ∉ closure.params.map Ident.name) (args : List Value) (value : Value) :
    ((store.openCall closure args).2.set closure.scope name value).get?
      (store.openCall closure args).1 name = some value := by
  have distinct : (store.openCall closure args).1 ≠ closure.scope := Nat.ne_of_gt isOpen
  have kept := (store.openCall closure args).2.keeps_set closure.scope name value _ distinct _
    store.getElem?_openCall
  have stillOpen : closure.scope < (store.openCall closure args).2.scopes.size := by
    simp only [openCall, push, Array.size_push]
    exact Nat.lt_succ_of_lt isOpen
  rw [get?_of_not_mem_params isOpen absent (kept.trans store.getElem?_openCall.symm)]
  exact gives_set stillOpen name value _ .here

end Store

namespace Value

theorem apply_of_fits (fits : closure.params.length = args.length) {depth : Nat}
    (room : depth < callLimit) :
    (Value.function closure).apply (Closure.enterAt depth) args store =
      (evalStmts (Closure.enterAt (depth + 1)) (store.openCall closure args).1 .null
        closure.body.statements).catchReturn (store.openCall closure args).2 := by
  rw [Value.apply, if_pos fits, Closure.enterAt_of_room room]
  rfl

theorem apply_of_mismatch (mismatch : closure.params.length ≠ args.length) (enter : Enter) :
    (Value.function closure).apply enter args store =
      (.error (.failed (.argumentCount closure.params.length args.length)), store) := by
  rw [Value.apply, if_neg mismatch]
  rfl

end Value

/-- By the rules, too, a wrong number of arguments is a fault and nothing else. -/
theorem Rules.application_iff_of_mismatch (mismatch : closure.params.length ≠ args.length)
    {before after : Machine} {outcome : Except Interrupt Value} :
    Rules.Application (.function closure) args before outcome after ↔
      outcome = .error (.failed (.argumentCount closure.params.length args.length)) ∧
        after = before := by
  constructor
  · intro applies
    cases applies with
    | notAFunction notFunction => exact absurd rfl notFunction
    | argumentCount => exact ⟨rfl, rfl⟩
    | stackOverflow fits | enter fits => exact absurd fits mismatch
  · rintro ⟨rfl, rfl⟩
    exact .argumentCount mismatch

end Calls

/-- A call with as many arguments as there are parameters evaluates the body in a new scope. There a
parameter has the argument with the greatest index among the parameters of its name. What other
names have is what the scope of the function gives when they are looked up, so a value that a name
is given there later is seen. This holds in any later store in which the scope of the call itself is
as it was built.

A call with another number of arguments opens no scope and does not count as a call. It is a fault
that tells both numbers, by the evaluator and by the rules, however many calls are being
evaluated. -/
theorem Value.apply_binds_arguments (closure : Closure) (args : List Value) (store : Store)
    (isOpen : closure.scope < store.scopes.size) :
    (closure.params.length = args.length →
      (∀ depth < callLimit, (Value.function closure).apply (Closure.enterAt depth) args store =
        (evalStmts (Closure.enterAt (depth + 1)) (store.openCall closure args).1 .null
          closure.body.statements).catchReturn (store.openCall closure args).2) ∧
      (∀ later : Store, later.scopes[(store.openCall closure args).1]? =
          (store.openCall closure args).2.scopes[(store.openCall closure args).1]? →
        ∀ name, (∀ index, closure.LastParam name index →
            later.get? (store.openCall closure args).1 name = args[index]?) ∧
          (name ∉ closure.params.map Ident.name →
            later.get? (store.openCall closure args).1 name = later.get? closure.scope name)) ∧
      ∀ name value, name ∉ closure.params.map Ident.name →
        ((store.openCall closure args).2.set closure.scope name value).get?
          (store.openCall closure args).1 name = some value) ∧
    (closure.params.length ≠ args.length → ∀ depth,
      (Value.function closure).apply (Closure.enterAt depth) args store =
        (.error (.failed (.argumentCount closure.params.length args.length)), store) ∧
      ∀ outcome after, Rules.Application (.function closure) args ⟨store, depth⟩ outcome after ↔
        outcome = .error (.failed (.argumentCount closure.params.length args.length)) ∧
          after = ⟨store, depth⟩) := by
  refine ⟨fun fits => ⟨?_, ?_, ?_⟩, fun mismatch depth => ⟨?_, ?_⟩⟩
  · exact fun depth room => apply_of_fits fits room
  · intro later kept name
    exact ⟨fun index param => Store.get?_of_lastParam fits param kept,
      fun absent => Store.get?_of_not_mem_params isOpen absent kept⟩
  · exact fun name value absent => Store.get?_set_of_not_mem_params isOpen absent args value
  · exact apply_of_mismatch mismatch _
  · exact fun outcome after => Rules.application_iff_of_mismatch mismatch

/-- A function with two parameters of the same name, created in the global scope. A global name is
bound after the scope of the call was opened. -/
theorem Value.apply_binds_arguments_repeated :
    let names := ["x", "y", "x"]
    let closure : Closure :=
      ⟨0, names.map fun name => .ofToken (.word name), .mk (.mark .lbrace) [], 0⟩
    let args : List Value := [.int 1, .int 2, .bool true]
    let call := Session.new.store.openCall closure args
    closure.scope < Session.new.store.scopes.size ∧ closure.params.length = args.length ∧
      call.2.get? call.1 "x" = some (.bool true) ∧ call.2.get? call.1 "y" = some (.int 2) ∧
      (call.2.set 0 "z" .null).get? call.1 "x" = some (.bool true) ∧
      (call.2.set 0 "z" .null).get? call.1 "z" = some .null ∧
      (Value.function closure).apply (Closure.enterAt 256) [.null] Session.new.store =
        (.error (.failed (.argumentCount 3 1)), Session.new.store) := by
  intro names closure args call
  have isOpen : closure.scope < Session.new.store.scopes.size := by decide
  have fits : closure.params.length = args.length := rfl
  rcases (apply_binds_arguments closure args Session.new.store isOpen).1 fits with
    ⟨_, bound, seen⟩
  have count : ∀ {later : Nat} {name : String},
      (closure.params.map Ident.name)[later]? = some name → later < 3 :=
    fun named => (List.getElem?_eq_some_iff.1 named).1
  have x : closure.LastParam "x" 2 :=
    ⟨rfl, fun later less named => Nat.not_lt_of_le less (count named)⟩
  have y : closure.LastParam "y" 1 := by
    refine ⟨rfl, fun later less named => ?_⟩
    obtain rfl : later = 2 := Nat.le_antisymm (Nat.le_of_lt_succ (count named)) less
    exact absurd named (by decide)
  refine ⟨isOpen, fits, ?_, ?_, ?_, ?_, ?_⟩
  · exact (bound call.2 rfl "x").1 2 x
  · exact (bound call.2 rfl "y").1 1 y
  · exact (bound (call.2.set 0 "z" .null) (by decide) "x").1 2 x
  · exact seen "z" .null (by decide)
  · exact ((apply_binds_arguments closure [.null] Session.new.store isOpen).2 (by decide) 256).1

end Scriptlet
