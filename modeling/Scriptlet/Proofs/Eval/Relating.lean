import Mathlib.Data.List.Forall2
import Scriptlet.Proofs.Eval.Interpreter

/-!
# What interpreters have in common

What holds of evaluations in general is proved of the operations that they are put together from.
Along the tree it is put together here, once for all.

A `Relation` says what it is that two interpreters do alike. It has one law for each operation, and
`does_run` follows from the laws: two evaluations of a tree do alike. What is known of a state may
become more on the way but never less, so states grow. An `Invariant` is the same for a single
interpreter.
-/

namespace Scriptlet

/-! ## Values -/

namespace Value

/-- The value is no function. -/
def Plain : Value → Prop
  | .function _ => False
  | .int _ | .bool _ | .null => True

variable {value : Value}

theorem plain_of_unary {op : Kind} {operand : Value} (done : unary op operand = .ok value) :
    value.Plain := by
  unfold unary at done
  split at done <;> cases done <;> trivial

theorem plain_of_suffix {op : Kind} {operand : Value} (done : suffix op operand = .ok value) :
    value.Plain := by
  unfold suffix at done
  split at done <;> cases done <;> trivial

theorem plain_of_binaryInt {op : Kind} {left right : Int64}
    (done : binaryInt op left right = .ok value) : value.Plain := by
  unfold binaryInt at done
  split at done
  case h_4 =>
    split at done <;> cases done
    trivial
  all_goals cases done <;> trivial

theorem plain_of_binaryBool {op : Kind} {left right : Bool}
    (done : binaryBool op left right = .ok value) : value.Plain := by
  unfold binaryBool at done
  split at done <;> cases done <;> trivial

theorem plain_of_binary {op : Kind} {left right : Value} (done : binary op left right = .ok value) :
    value.Plain := by
  unfold binary at done
  split at done
  · exact plain_of_binaryInt done
  · exact plain_of_binaryBool done
  · split at done <;> cases done

/-- The values are equal, or they are functions that were created from the same literal. -/
inductive Resembles : Value → Value → Prop
  | refl (value : Value) : Resembles value value
  | functions {closure other : Closure} (params : other.params = closure.params)
      (body : other.body = closure.body) : Resembles (.function closure) (.function other)

namespace Resembles

variable {other : Value}

theorem cases_function (resembles : value.Resembles other) :
    (∃ closure closure', value = .function closure ∧ other = .function closure') ∨
      other = value ∧ value.Plain := by
  cases resembles with
  | refl =>
      cases value with
      | function closure => exact .inl ⟨closure, closure, rfl, rfl⟩
      | int | bool | null => exact .inr ⟨rfl, trivial⟩
  | @functions closure closure' _ _ => exact .inl ⟨closure, closure', rfl, rfl⟩

theorem params_eq {closure closure' : Closure}
    (resembles : (Value.function closure).Resembles (.function closure')) :
    closure'.params = closure.params := by
  cases resembles with
  | refl => rfl
  | functions params _ => exact params

theorem body_eq {closure closure' : Closure}
    (resembles : (Value.function closure).Resembles (.function closure')) :
    closure'.body = closure.body := by
  cases resembles with
  | refl => rfl
  | functions _ body => exact body

theorem truthy_eq (resembles : value.Resembles other) : other.truthy = value.truthy := by
  cases resembles <;> rfl

theorem unary_eq (resembles : value.Resembles other) (op : Kind) :
    Value.unary op other = Value.unary op value := by
  cases resembles with
  | refl => rfl
  | functions => cases op <;> rfl

theorem suffix_eq (resembles : value.Resembles other) (op : Kind) :
    Value.suffix op other = Value.suffix op value := by
  cases resembles with
  | refl => rfl
  | functions => cases op <;> rfl

theorem binary_eq {right otherRight : Value} (resembles : value.Resembles other)
    (rightResembles : right.Resembles otherRight) (op : Kind) :
    Value.binary op other otherRight = Value.binary op value right := by
  cases resembles with
  | refl =>
      cases rightResembles with
      | refl => rfl
      | functions => cases value <;> rfl
  | functions =>
      cases rightResembles with
      | refl => cases right <;> rfl
      | functions => rfl

end Resembles

end Value

/-- The faults that the evaluation of a node can stop with, those of its children left out. -/
inductive Node.Raises : Node → Fault → Prop
  | unbound (ident : Ident) : Raises (.expr (.name ident)) (.unbound ident.name)
  | unary {token : Token} {operand : Expr} {value : Value} {fault : Fault}
      (failed : Value.unary token.kind value = .error fault) :
      Raises (.expr (.unary token operand)) fault
  | binary {token : Token} {left right : Expr} {first second : Value} {fault : Fault}
      (failed : Value.binary token.kind first second = .error fault) :
      Raises (.expr (.binary token left right)) fault
  | suffix {token : Token} {operand : Expr} {value : Value} {fault : Fault}
      (failed : Value.suffix token.kind value = .error fault) :
      Raises (.expr (.suffix token operand)) fault
  | notAFunction {token : Token} {callee : Expr} {args : List Expr} {found : ValueType}
      (other : found ≠ .function) : Raises (.expr (.call token callee args)) (.notAFunction found)
  | argumentCount {token : Token} {callee : Expr} {args : List Expr} {expected found : Nat}
      (other : expected ≠ found) :
      Raises (.expr (.call token callee args)) (.argumentCount expected found)
  | stackOverflow {token : Token} {callee : Expr} {args : List Expr} :
      Raises (.expr (.call token callee args)) (.stackOverflow callLimit)

def Node.isLiteral : Node → Bool
  | .expr (.function _ _ _) => true
  | _ => false

/-! ## Relations -/

/-- What relates the evaluations of two interpreters. All but the faults that excuse is seen from
the state of the first one. -/
structure Interpreter.Relation {State Stop Val Ctx State' Stop' Val' Ctx' : Type}
    (interpreter : Interpreter State Stop Val Ctx)
    (other : Interpreter State' Stop' Val' Ctx') where
  /-- What was known of the state before is known of the one after. -/
  Grows : State → State → Prop
  Fits : State → State' → Prop
  Like : State → Val → Val' → Prop
  /-- The node may be evaluated in these contexts. -/
  Stands : State → Node → Ctx → Ctx' → Prop
  /-- The fault may stop an evaluation now. -/
  MayFail : State → Fault → Prop := fun _ _ => True
  /-- When the first evaluation stops with this fault, nothing is asked of the other one. -/
  Excused : Fault → Prop := fun _ => False

namespace Interpreter.Relation

variable {State Stop Val Ctx State' Stop' Val' Ctx' Result Result' Next Next' : Type}
  {interpreter : Interpreter State Stop Val Ctx} {other : Interpreter State' Stop' Val' Ctx'}
  (relation : interpreter.Relation other)

/-- Scopes have been opened in which the statements of the block may be evaluated. -/
structure Opens (before : State) (opened : Ctx × State) (opened' : Ctx' × State')
    (block : Block) : Prop where
  grows : relation.Grows before opened.2
  fits : relation.Fits opened.2 opened'.2
  stand : ∀ stmt ∈ block.statements, relation.Stands opened.2 (.stmt stmt) opened.1 opened'.1

/-- The laws: every operation of the first interpreter does the same as that of the other one, for
states, values and contexts that are related. -/
structure Lawful : Prop where
  refl (state : State) : relation.Grows state state
  trans {before middle after : State} : relation.Grows before middle →
    relation.Grows middle after → relation.Grows before after
  like_mono {before after : State} {val : Val} {val' : Val'} : relation.Like before val val' →
    relation.Grows before after → relation.Like after val val'
  stands_mono {before after : State} {node : Node} {ctx : Ctx} {ctx' : Ctx'} :
    relation.Stands before node ctx ctx' → relation.Grows before after →
      relation.Stands after node ctx ctx'
  mayFail_mono {before after : State} {fault : Fault} : relation.MayFail before fault →
    relation.Grows before after → relation.MayFail after fault
  plain (state : State) {value : Value} : value.Plain →
    relation.Like state (interpreter.plain value) (other.plain value)
  resembles {state : State} {val : Val} {val' : Val'} : relation.Like state val val' →
    (interpreter.value val).Resembles (other.value val')
  /-- What is directly below a statement or an expression. -/
  child {state : State} {node : Node} {ctx : Ctx} {ctx' : Ctx'} :
    relation.Stands state node ctx ctx' → node.isBlock = false → ∀ inner ∈ node.children,
      relation.Stands state inner (interpreter.below node ctx) (other.below node ctx')
  visit {state : State} {state' : State'} {node : Node} {ctx : Ctx} {ctx' : Ctx'} :
    relation.Fits state state' → relation.Stands state node ctx ctx' →
      relation.Grows state (interpreter.visit node ctx state) ∧
      relation.Fits (interpreter.visit node ctx state) (other.visit node ctx' state') ∧
      ∀ fault, node.Raises fault → relation.MayFail (interpreter.visit node ctx state) fault
  leave {state : State} {state' : State'} {node : Node} {val : Val} {val' : Val'} :
    relation.Fits state state' → relation.Like state val val' → node.isLiteral = false →
      relation.Grows state (interpreter.leave node val state) ∧
      relation.Fits (interpreter.leave node val state) (other.leave node val' state')
  lookup {state : State} {state' : State'} {ident : Ident} {ctx : Ctx} {ctx' : Ctx'} :
    relation.Fits state state' → relation.Stands state (.expr (.name ident)) ctx ctx' →
      Option.Rel (relation.Like state) (interpreter.lookup ctx ident.name state)
        (other.lookup ctx' ident.name state')
  create {state : State} {state' : State'} {token : Token} {params : List Ident} {body : Block}
      {ctx : Ctx} {ctx' : Ctx'} : relation.Fits state state' →
    relation.Stands state (.expr (.function token params body)) ctx ctx' →
      relation.Grows state (interpreter.create ctx token params body state).2 ∧
      relation.Fits (interpreter.create ctx token params body state).2
        (other.create ctx' token params body state').2 ∧
      relation.Like (interpreter.create ctx token params body state).2
        (interpreter.create ctx token params body state).1
        (other.create ctx' token params body state').1
  bindName {state : State} {state' : State'} {token : Token} {name : Ident} {expr : Expr}
      {ctx : Ctx} {ctx' : Ctx'} {val : Val} {val' : Val'} : relation.Fits state state' →
    relation.Stands state (.stmt (.letBind token name expr)) ctx ctx' →
    relation.Like state val val' →
      relation.Grows state (interpreter.bindName ctx name.name val state) ∧
      relation.Fits (interpreter.bindName ctx name.name val state)
        (other.bindName ctx' name.name val' state')
  openInside {state : State} {state' : State'} {block : Block} {ctx : Ctx} {ctx' : Ctx'} :
    relation.Fits state state' → relation.Stands state (.block block) ctx ctx' →
      relation.Opens state
        (interpreter.openInside (interpreter.below (.block block) ctx) state)
        (other.openInside (other.below (.block block) ctx') state') block
  openCall {state : State} {state' : State'} {val : Val} {val' : Val'} {closure closure' : Closure}
      {args : List Val} {args' : List Val'} : relation.Fits state state' →
    relation.Like state val val' → interpreter.value val = .function closure →
    other.value val' = .function closure' → List.Forall₂ (relation.Like state) args args' →
      relation.Opens state (interpreter.openCall closure args state)
        (other.openCall closure' args' state') closure.body

/-- How two executions end alike. In the state that they lead to their results are related. -/
inductive Ends (before : State) (holds : State → Result → Result' → Prop) :
    Except Stop Result × State → Except Stop' Result' × State' → Prop
  | ok {after : State} {after' : State'} {result : Result} {result' : Result'}
      (grows : relation.Grows before after) (fits : relation.Fits after after')
      (held : holds after result result') :
      Ends before holds (.ok result, after) (.ok result', after')
  | returned {after : State} {after' : State'} {val : Val} {val' : Val'}
      (grows : relation.Grows before after) (fits : relation.Fits after after')
      (like : relation.Like after val val') :
      Ends before holds (.error (interpreter.returned val), after)
        (.error (other.returned val'), after')
  | failed {after : State} {after' : State'} {fault : Fault}
      (grows : relation.Grows before after) (fits : relation.Fits after after')
      (mayFail : relation.MayFail after fault) :
      Ends before holds (.error (interpreter.failed fault), after)
        (.error (other.failed fault), after')
  | excused {after : State} {fault : Fault} {ended : Except Stop' Result' × State'}
      (excused : relation.Excused fault) :
      Ends before holds (.error (interpreter.failed fault), after) ended

/-- Begun in states that fit, the executions end alike. -/
def Does (state : State) (holds : State → Result → Result' → Prop)
    (execution : Execution State Stop Result) (execution' : Execution State' Stop' Result') :
    Prop :=
  ∀ state', relation.Fits state state' →
    relation.Ends state holds (execution state) (execution' state')

/-- Both are functions, of values that are related. -/
def Callable (state : State) (closure closure' : Closure) : Prop :=
  ∃ val val', relation.Like state val val' ∧ interpreter.value val = .function closure ∧
    other.value val' = .function closure'

/-- Calls are entered alike. -/
def Enters (enter : Enter State Stop Val) (enter' : Enter State' Stop' Val') : Prop :=
  ∀ {state : State} {closure closure' : Closure} {args : List Val} {args' : List Val'},
    relation.Callable state closure closure' → List.Forall₂ (relation.Like state) args args' →
      relation.MayFail state (.stackOverflow callLimit) →
        relation.Does state relation.Like (enter closure args) (enter' closure' args')

variable {relation} {state : State} {holds : State → Result → Result' → Prop}
  {holdsNext : State → Next → Next' → Prop}

theorem Lawful.null (lawful : relation.Lawful) (state : State) :
    relation.Like state (interpreter.plain .null) (other.plain .null) :=
  lawful.plain state trivial

theorem does_pure {result : Result} {result' : Result'} (lawful : relation.Lawful)
    (held : holds state result result') :
    relation.Does state holds (pure result) (pure result') :=
  fun _ fits => .ok (lawful.refl state) fits held

theorem does_ret {val : Val} {val' : Val'} (lawful : relation.Lawful)
    (like : relation.Like state val val') :
    relation.Does state relation.Like (interpreter.ret val) (other.ret val') :=
  fun _ fits => .returned (lawful.refl state) fits like

theorem does_fail {fault : Fault} (lawful : relation.Lawful)
    (mayFail : relation.MayFail state fault) :
    relation.Does state relation.Like (interpreter.fail fault) (other.fail fault) :=
  fun _ fits => .failed (lawful.refl state) fits mayFail

theorem Ends.of_grows {before middle : State} {ended : Except Stop Result × State}
    {ended' : Except Stop' Result' × State'} (lawful : relation.Lawful)
    (ends : relation.Ends middle holds ended ended') (grows : relation.Grows before middle) :
    relation.Ends before holds ended ended' := by
  cases ends with
  | ok more fits held => exact .ok (lawful.trans grows more) fits held
  | returned more fits like => exact .returned (lawful.trans grows more) fits like
  | failed more fits mayFail => exact .failed (lawful.trans grows more) fits mayFail
  | excused excused => exact .excused excused

/-- What comes second may rely on what the first results are like, and on all that was known. -/
theorem Does.bind {execution : Execution State Stop Result}
    {execution' : Execution State' Stop' Result'} {next : Result → Execution State Stop Next}
    {next' : Result' → Execution State' Stop' Next'} (lawful : relation.Lawful)
    (first : relation.Does state holds execution execution')
    (second : ∀ result result' after, relation.Grows state after → holds after result result' →
      relation.Does after holdsNext (next result) (next' result')) :
    relation.Does state holdsNext (execution >>= next) (execution' >>= next') := by
  intro state' fits
  have ends := first state' fits
  generalize done : execution state = ended at ends
  generalize done' : execution' state' = ended' at ends
  cases ends with
  | ok grows fits held =>
      rw [Execution.bind_of_ok done, Execution.bind_of_ok done']
      exact (second _ _ _ grows held _ fits).of_grows lawful grows
  | returned grows fits like =>
      rw [Execution.bind_of_error done, Execution.bind_of_error done']
      exact .returned grows fits like
  | failed grows fits mayFail =>
      rw [Execution.bind_of_error done, Execution.bind_of_error done']
      exact .failed grows fits mayFail
  | excused excused =>
      rw [Execution.bind_of_error done]
      exact .excused excused

theorem Does.catchReturn {execution : Execution State Stop Val}
    {execution' : Execution State' Stop' Val'}
    (does : relation.Does state relation.Like execution execution') :
    relation.Does state relation.Like (interpreter.catchReturn execution)
      (other.catchReturn execution') := by
  intro state' fits
  have ends := does state' fits
  unfold Interpreter.catchReturn
  generalize execution state = ended at ends
  generalize execution' state' = ended' at ends
  cases ends with
  | ok grows fits like => exact .ok grows fits like
  | returned grows fits like =>
      simp only [interpreter.returned?_returned, other.returned?_returned]
      exact .ok grows fits like
  | failed grows fits mayFail =>
      simp only [interpreter.returned?_failed, other.returned?_failed]
      exact .failed grows fits mayFail
  | excused excused =>
      simp only [interpreter.returned?_failed]
      exact .excused excused

/-- From the moment a node is visited its evaluation may stop with the faults that it raises. -/
theorem does_noting {node : Node} {ctx : Ctx} {ctx' : Ctx'} {execution : Execution State Stop Val}
    {execution' : Execution State' Stop' Val'} (lawful : relation.Lawful)
    (stands : relation.Stands state node ctx ctx') (noLiteral : node.isLiteral = false)
    (rest : ∀ visited, relation.Stands visited node ctx ctx' →
      (∀ fault, node.Raises fault → relation.MayFail visited fault) →
        relation.Does visited relation.Like execution execution') :
    relation.Does state relation.Like (interpreter.noting node ctx execution)
      (other.noting node ctx' execution') := by
  intro state' fits
  rcases lawful.visit fits stands with ⟨visited, fitsVisited, mayFail⟩
  have ends := (rest _ (lawful.stands_mono stands visited) mayFail _ fitsVisited).of_grows lawful
    visited
  unfold Interpreter.noting
  generalize execution (interpreter.visit node ctx state) = ended at ends
  generalize execution' (other.visit node ctx' state') = ended' at ends
  cases ends with
  | ok grows fits like =>
      rcases lawful.leave fits like noLiteral with ⟨left, fitsLeft⟩
      exact .ok (lawful.trans grows left) fitsLeft (lawful.like_mono like left)
  | returned grows fits like => exact .returned grows fits like
  | failed grows fits mayFail => exact .failed grows fits mayFail
  | excused excused => exact .excused excused

theorem does_lookupName {ident : Ident} {ctx : Ctx} {ctx' : Ctx'} (lawful : relation.Lawful)
    (stands : relation.Stands state (.expr (.name ident)) ctx ctx')
    (mayFail : relation.MayFail state (.unbound ident.name)) :
    relation.Does state relation.Like (interpreter.lookupName ctx ident.name)
      (other.lookupName ctx' ident.name) := by
  intro state' fits
  have found := lawful.lookup fits stands
  unfold Interpreter.lookupName
  generalize interpreter.lookup ctx ident.name state = result at found
  generalize other.lookup ctx' ident.name state' = result' at found
  cases found with
  | none => exact .failed (lawful.refl state) fits mayFail
  | some like => exact .ok (lawful.refl state) fits like

theorem does_ofExcept {outcome outcome' : Except Fault Value} (lawful : relation.Lawful)
    (same : outcome' = outcome) (plain : ∀ value, outcome = .ok value → value.Plain)
    (mayFail : ∀ fault, outcome = .error fault → relation.MayFail state fault) :
    relation.Does state relation.Like (interpreter.ofExcept outcome) (other.ofExcept outcome') := by
  subst same
  cases outcome' with
  | ok value => exact does_pure lawful (lawful.plain state (plain value rfl))
  | error fault => exact does_fail lawful (mayFail fault rfl)

theorem does_apply {enter : Enter State Stop Val} {enter' : Enter State' Stop' Val'}
    (lawful : relation.Lawful) (entered : relation.Enters enter enter') {token : Token}
    {expr : Expr} {exprs : List Expr} {callee : Val} {callee' : Val'} {args : List Val}
    {args' : List Val'}
    (mayFail : ∀ fault, Node.Raises (.expr (.call token expr exprs)) fault →
      relation.MayFail state fault)
    (like : relation.Like state callee callee')
    (likeArgs : List.Forall₂ (relation.Like state) args args') :
    relation.Does state relation.Like (interpreter.apply enter callee args)
      (other.apply enter' callee' args') := by
  have resembles := lawful.resembles like
  rcases resembles.cases_function with ⟨closure, closure', isValue, isValue'⟩ | ⟨same, plain⟩
  · rw [isValue, isValue'] at resembles
    simp only [Interpreter.apply, isValue, isValue', resembles.params_eq, ← likeArgs.length_eq]
    split
    · exact entered ⟨callee, callee', like, isValue, isValue'⟩ likeArgs (mayFail _ .stackOverflow)
    · next mismatch => exact does_fail lawful (mayFail _ (.argumentCount mismatch))
  · simp only [Interpreter.apply, same]
    cases isValue : interpreter.value callee with
    | function closure =>
        rw [isValue] at plain
        exact absurd plain id
    | int | bool | null =>
        exact does_fail lawful (mayFail _ (.notAFunction (by simp [Value.type])))

end Interpreter.Relation

section Trees

variable {State Stop Val Ctx State' Stop' Val' Ctx' : Type}
  {interpreter : Interpreter State Stop Val Ctx} {other : Interpreter State' Stop' Val' Ctx'}
  {relation : interpreter.Relation other} {enter : Interpreter.Enter State Stop Val}
  {enter' : Interpreter.Enter State' Stop' Val'}

open Interpreter.Relation

mutual

theorem Expr.does_run (lawful : relation.Lawful) (entered : relation.Enters enter enter') :
    (expr : Expr) → {state : State} → {ctx : Ctx} → {ctx' : Ctx'} →
      relation.Stands state (.expr expr) ctx ctx' →
        relation.Does state relation.Like (expr.run interpreter enter ctx)
          (expr.run other enter' ctx')
  | .name ident, _, _, _, stands => by
      apply does_noting lawful stands rfl
      intro visited stands mayFail
      exact does_lookupName lawful stands (mayFail _ (.unbound ident))
  | .int _ _, _, _, _, stands | .bool _ _, _, _, _, stands => by
      apply does_noting lawful stands rfl
      intro visited _ _
      exact does_pure lawful (lawful.plain visited trivial)
  | .unary token operand, _, _, _, stands => by
      apply does_noting lawful stands rfl
      intro _ stands mayFail
      have below := lawful.child stands rfl
      apply (operand.does_run lawful entered (below _ (by simp [Node.children]))).bind lawful
      intro value value' _ grows like
      apply does_ofExcept lawful ((lawful.resembles like).unary_eq token.kind)
      · exact fun _ => Value.plain_of_unary
      · exact fun fault failed => lawful.mayFail_mono (mayFail fault (.unary failed)) grows
  | .binary token left right, _, _, _, stands => by
      apply does_noting lawful stands rfl
      intro _ stands mayFail
      have below := lawful.child stands rfl
      apply (left.does_run lawful entered (below _ (by simp [Node.children]))).bind lawful
      intro first first' _ grows likeFirst
      have belowLater := lawful.stands_mono (below (.expr right) (by simp [Node.children])) grows
      apply (right.does_run lawful entered belowLater).bind lawful
      intro second second' _ grown likeSecond
      have likeFirst := lawful.like_mono likeFirst grown
      apply does_ofExcept lawful
        ((lawful.resembles likeFirst).binary_eq (lawful.resembles likeSecond) token.kind)
      · exact fun _ => Value.plain_of_binary
      · intro fault failed
        exact lawful.mayFail_mono (mayFail fault (.binary failed)) (lawful.trans grows grown)
  | .suffix token operand, _, _, _, stands => by
      apply does_noting lawful stands rfl
      intro _ stands mayFail
      have below := lawful.child stands rfl
      apply (operand.does_run lawful entered (below _ (by simp [Node.children]))).bind lawful
      intro value value' _ grows like
      apply does_ofExcept lawful ((lawful.resembles like).suffix_eq token.kind)
      · exact fun _ => Value.plain_of_suffix
      · exact fun fault failed => lawful.mayFail_mono (mayFail fault (.suffix failed)) grows
  | .cond _ test consequence none, _, _, _, stands => by
      apply does_noting lawful stands rfl
      intro _ stands _
      have below := lawful.child stands rfl
      apply (test.does_run lawful entered (below _ (by simp [Node.children]))).bind lawful
      intro value value' after grows like
      rw [(lawful.resembles like).truthy_eq]
      split
      · exact consequence.does_run lawful entered
          (lawful.stands_mono (below _ (by simp [Node.children])) grows)
      · exact does_pure lawful (lawful.null after)
  | .cond _ test consequence (some alternative), _, _, _, stands => by
      apply does_noting lawful stands rfl
      intro _ stands _
      have below := lawful.child stands rfl
      apply (test.does_run lawful entered (below _ (by simp [Node.children]))).bind lawful
      intro value value' _ grows like
      rw [(lawful.resembles like).truthy_eq]
      split
      · exact consequence.does_run lawful entered
          (lawful.stands_mono (below _ (by simp [Node.children])) grows)
      · exact alternative.does_run lawful entered
          (lawful.stands_mono (below _ (by simp [Node.children])) grows)
  | .function _ _ _, _, _, _, stands => by
      intro state' fits
      rcases lawful.create fits stands with ⟨grows, fits, like⟩
      exact .ok grows fits like
  | .call token callee args, _, _, _, stands => by
      apply does_noting lawful stands rfl
      intro _ stands mayFail
      have below := lawful.child stands rfl
      apply (callee.does_run lawful entered (below _ (by simp [Node.children]))).bind lawful
      intro function function' _ grows like
      apply (does_runExprs lawful entered args fun arg arg_mem =>
        lawful.stands_mono (below _ (by simp [Node.children, arg_mem])) grows).bind lawful
      intro values values' after grown likeArgs
      have mayFail (fault : Fault) (raises : Node.Raises (.expr (.call token callee args)) fault) :=
        lawful.mayFail_mono (mayFail fault raises) (lawful.trans grows grown)
      exact does_apply lawful entered mayFail (lawful.like_mono like grown) likeArgs

theorem does_runExprs (lawful : relation.Lawful) (entered : relation.Enters enter enter') :
    (exprs : List Expr) → {state : State} → {ctx : Ctx} → {ctx' : Ctx'} →
      (∀ expr ∈ exprs, relation.Stands state (.expr expr) ctx ctx') →
        relation.Does state (fun state => List.Forall₂ (relation.Like state))
          (runExprs interpreter enter ctx exprs) (runExprs other enter' ctx' exprs)
  | [], _, _, _, _ => does_pure lawful .nil
  | expr :: exprs, _, _, _, stand => by
      rw [List.forall_mem_cons] at stand
      apply (expr.does_run lawful entered stand.1).bind lawful
      intro value value' _ grows like
      apply (does_runExprs lawful entered exprs fun expr expr_mem =>
        lawful.stands_mono (stand.2 expr expr_mem) grows).bind lawful
      intro values values' _ grown likeValues
      exact does_pure lawful (.cons (lawful.like_mono like grown) likeValues)

theorem Stmt.does_run (lawful : relation.Lawful) (entered : relation.Enters enter enter') :
    (stmt : Stmt) → {state : State} → {ctx : Ctx} → {ctx' : Ctx'} →
      relation.Stands state (.stmt stmt) ctx ctx' →
        relation.Does state relation.Like (stmt.run interpreter enter ctx)
          (stmt.run other enter' ctx')
  | .letBind token name value, _, _, _, stands => by
      apply does_noting lawful stands rfl
      intro _ stands _
      have below := lawful.child stands rfl
      apply (value.does_run lawful entered (below _ (by simp [Node.children]))).bind lawful
      intro result result' _ grows like state' fits
      rcases lawful.bindName fits (lawful.stands_mono stands grows) like with ⟨bound, fitsBound⟩
      exact .ok bound fitsBound (lawful.null _)
  | .ret _ value, _, _, _, stands => by
      apply does_noting lawful stands rfl
      intro _ stands _
      have below := lawful.child stands rfl
      apply (value.does_run lawful entered (below _ (by simp [Node.children]))).bind lawful
      intro _ _ _ _ like
      exact does_ret lawful like
  | .expr _ expr, _, _, _, stands => by
      apply does_noting lawful stands rfl
      intro _ stands _
      exact expr.does_run lawful entered (lawful.child stands rfl _ (by simp [Node.children]))
  | .block block, _, _, _, stands => by
      apply does_noting lawful stands rfl
      intro _ stands _
      exact block.does_run lawful entered (lawful.child stands rfl _ (by simp [Node.children]))

theorem does_runStmts (lawful : relation.Lawful) (entered : relation.Enters enter enter') :
    (stmts : List Stmt) → {state : State} → {ctx : Ctx} → {ctx' : Ctx'} → {last : Val} →
      {last' : Val'} → (∀ stmt ∈ stmts, relation.Stands state (.stmt stmt) ctx ctx') →
        relation.Like state last last' →
          relation.Does state relation.Like (runStmts interpreter enter ctx last stmts)
            (runStmts other enter' ctx' last' stmts)
  | [], _, _, _, _, _, _, like => does_pure lawful like
  | stmt :: stmts, _, _, _, _, _, stand, _ => by
      rw [List.forall_mem_cons] at stand
      apply (stmt.does_run lawful entered stand.1).bind lawful
      intro value value' _ grows like
      exact does_runStmts lawful entered stmts
        (fun stmt stmt_mem => lawful.stands_mono (stand.2 stmt stmt_mem) grows) like

theorem Block.does_run (lawful : relation.Lawful) (entered : relation.Enters enter enter') :
    (block : Block) → {state : State} → {ctx : Ctx} → {ctx' : Ctx'} →
      relation.Stands state (.block block) ctx ctx' →
        relation.Does state relation.Like (block.run interpreter enter ctx)
          (block.run other enter' ctx')
  | .mk _ statements, _, _, _, stands => by
      intro state' fits
      have opens := lawful.openInside fits stands
      have inside :=
        does_runStmts lawful entered statements opens.stand (lawful.null _) _ opens.fits
      exact inside.of_grows lawful opens.grows

end

/-- Calls are entered alike if those inside them are. -/
theorem Interpreter.Relation.enters_succ (lawful : relation.Lawful) {room room' : Nat}
    (entered : relation.Enters (Closure.run interpreter room) (Closure.run other room')) :
    relation.Enters (Closure.run interpreter (room + 1)) (Closure.run other (room' + 1)) := by
  rintro state closure ⟨id', params', body', scope'⟩ args args' ⟨val, val', like, isValue, isValue'⟩
    likeArgs _ state' fits
  have opens := lawful.openCall fits like isValue isValue' likeArgs
  have resembles := lawful.resembles like
  rw [isValue, isValue'] at resembles
  have sameBody : body' = closure.body := resembles.body_eq
  subst sameBody
  have body := does_runStmts lawful entered closure.body.statements opens.stand (lawful.null _)
  exact (body.catchReturn _ opens.fits).of_grows lawful opens.grows

theorem Interpreter.Relation.enters_run (lawful : relation.Lawful) (room : Nat) :
    relation.Enters (Closure.run interpreter room) (Closure.run other room) := by
  induction room with
  | zero => exact fun _ _ mayFail => does_fail lawful mayFail
  | succ room ih => exact enters_succ lawful ih

variable {state : State} {state' : State'} {ctx : Ctx} {ctx' : Ctx'}

theorem Expr.ends_run (lawful : relation.Lawful) (room : Nat) (expr : Expr)
    (fits : relation.Fits state state') (stands : relation.Stands state (.expr expr) ctx ctx') :
    relation.Ends state relation.Like
      (expr.run interpreter (Closure.run interpreter room) ctx state)
      (expr.run other (Closure.run other room) ctx' state') :=
  expr.does_run lawful (enters_run lawful room) stands state' fits

theorem ends_runExprs (lawful : relation.Lawful) (room : Nat) (exprs : List Expr)
    (fits : relation.Fits state state')
    (stand : ∀ expr ∈ exprs, relation.Stands state (.expr expr) ctx ctx') :
    relation.Ends state (fun state => List.Forall₂ (relation.Like state))
      (runExprs interpreter (Closure.run interpreter room) ctx exprs state)
      (runExprs other (Closure.run other room) ctx' exprs state') :=
  does_runExprs lawful (enters_run lawful room) exprs stand state' fits

theorem Stmt.ends_run (lawful : relation.Lawful) (room : Nat) (stmt : Stmt)
    (fits : relation.Fits state state') (stands : relation.Stands state (.stmt stmt) ctx ctx') :
    relation.Ends state relation.Like
      (stmt.run interpreter (Closure.run interpreter room) ctx state)
      (stmt.run other (Closure.run other room) ctx' state') :=
  stmt.does_run lawful (enters_run lawful room) stands state' fits

theorem ends_runStmts (lawful : relation.Lawful) (room : Nat) (stmts : List Stmt)
    (fits : relation.Fits state state')
    (stand : ∀ stmt ∈ stmts, relation.Stands state (.stmt stmt) ctx ctx') {last : Val}
    {last' : Val'} (like : relation.Like state last last') :
    relation.Ends state relation.Like
      (runStmts interpreter (Closure.run interpreter room) ctx last stmts state)
      (runStmts other (Closure.run other room) ctx' last' stmts state') :=
  does_runStmts lawful (enters_run lawful room) stmts stand like state' fits

end Trees

/-! ## Invariants -/

/-- What is known of the evaluations of one interpreter. -/
structure Interpreter.Invariant {State Stop Val Ctx : Type}
    (interpreter : Interpreter State Stop Val Ctx) where
  Grows : State → State → Prop
  Fits : State → Prop
  Holds : State → Val → Prop
  Stands : State → Node → Ctx → Prop
  MayFail : State → Fault → Prop := fun _ _ => True

namespace Interpreter.Invariant

variable {State Stop Val Ctx Result Result' : Type} {interpreter : Interpreter State Stop Val Ctx}
  (invariant : interpreter.Invariant)

/-- A scope has been opened in which the statements of the block may be evaluated. -/
structure Opens (before : State) (opened : Ctx × State) (block : Block) : Prop where
  grows : invariant.Grows before opened.2
  fits : invariant.Fits opened.2
  stand : ∀ stmt ∈ block.statements, invariant.Stands opened.2 (.stmt stmt) opened.1

structure Lawful : Prop where
  refl (state : State) : invariant.Grows state state
  trans {before middle after : State} : invariant.Grows before middle →
    invariant.Grows middle after → invariant.Grows before after
  holds_mono {before after : State} {val : Val} : invariant.Holds before val →
    invariant.Grows before after → invariant.Holds after val
  stands_mono {before after : State} {node : Node} {ctx : Ctx} :
    invariant.Stands before node ctx → invariant.Grows before after →
      invariant.Stands after node ctx
  mayFail_mono {before after : State} {fault : Fault} : invariant.MayFail before fault →
    invariant.Grows before after → invariant.MayFail after fault
  plain (state : State) {value : Value} : value.Plain →
    invariant.Holds state (interpreter.plain value)
  child {state : State} {node : Node} {ctx : Ctx} : invariant.Stands state node ctx →
    node.isBlock = false → ∀ inner ∈ node.children,
      invariant.Stands state inner (interpreter.below node ctx)
  visit {state : State} {node : Node} {ctx : Ctx} : invariant.Fits state →
    invariant.Stands state node ctx →
      invariant.Grows state (interpreter.visit node ctx state) ∧
      invariant.Fits (interpreter.visit node ctx state) ∧
      ∀ fault, node.Raises fault → invariant.MayFail (interpreter.visit node ctx state) fault
  leave {state : State} {node : Node} {val : Val} : invariant.Fits state →
    invariant.Holds state val → node.isLiteral = false →
      invariant.Grows state (interpreter.leave node val state) ∧
      invariant.Fits (interpreter.leave node val state)
  lookup {state : State} {ident : Ident} {ctx : Ctx} {val : Val} : invariant.Fits state →
    interpreter.lookup ctx ident.name state = some val → invariant.Holds state val
  create {state : State} {token : Token} {params : List Ident} {body : Block} {ctx : Ctx} :
    invariant.Fits state → invariant.Stands state (.expr (.function token params body)) ctx →
      invariant.Grows state (interpreter.create ctx token params body state).2 ∧
      invariant.Fits (interpreter.create ctx token params body state).2 ∧
      invariant.Holds (interpreter.create ctx token params body state).2
        (interpreter.create ctx token params body state).1
  bindName {state : State} {token : Token} {name : Ident} {expr : Expr} {ctx : Ctx} {val : Val} :
    invariant.Fits state → invariant.Stands state (.stmt (.letBind token name expr)) ctx →
    invariant.Holds state val →
      invariant.Grows state (interpreter.bindName ctx name.name val state) ∧
      invariant.Fits (interpreter.bindName ctx name.name val state)
  openInside {state : State} {block : Block} {ctx : Ctx} : invariant.Fits state →
    invariant.Stands state (.block block) ctx →
      invariant.Opens state
        (interpreter.openInside (interpreter.below (.block block) ctx) state) block
  openCall {state : State} {val : Val} {closure : Closure} {args : List Val} :
    invariant.Fits state → invariant.Holds state val →
    interpreter.value val = .function closure → (∀ arg ∈ args, invariant.Holds state arg) →
      invariant.Opens state (interpreter.openCall closure args state) closure.body

/-- An invariant relates an interpreter to itself. -/
def relation : interpreter.Relation interpreter where
  Grows := invariant.Grows
  Fits state state' := invariant.Fits state ∧ state = state'
  Like state val val' := invariant.Holds state val ∧ val = val'
  Stands state node ctx ctx' := invariant.Stands state node ctx ∧ ctx = ctx'
  MayFail := invariant.MayFail

variable {invariant}

theorem Opens.relation {before : State} {opened : Ctx × State} {block : Block}
    (opens : invariant.Opens before opened block) :
    invariant.relation.Opens before opened opened block :=
  ⟨opens.grows, ⟨opens.fits, rfl⟩, fun stmt stmt_mem => ⟨opens.stand stmt stmt_mem, rfl⟩⟩

theorem Lawful.relation (lawful : invariant.Lawful) : invariant.relation.Lawful where
  refl := lawful.refl
  trans := lawful.trans
  like_mono like grows := ⟨lawful.holds_mono like.1 grows, like.2⟩
  stands_mono stands grows := ⟨lawful.stands_mono stands.1 grows, stands.2⟩
  mayFail_mono := lawful.mayFail_mono
  plain state _ isPlain := ⟨lawful.plain state isPlain, rfl⟩
  resembles := by
    rintro state val _ ⟨_, rfl⟩
    exact .refl _
  child := by
    rintro state node ctx _ ⟨stands, rfl⟩ noBlock inner isChild
    exact ⟨lawful.child stands noBlock inner isChild, rfl⟩
  visit := by
    rintro state _ node ctx _ ⟨fits, rfl⟩ ⟨stands, rfl⟩
    rcases lawful.visit fits stands with ⟨grows, fits, mayFail⟩
    exact ⟨grows, ⟨fits, rfl⟩, mayFail⟩
  leave := by
    rintro state _ node val _ ⟨fits, rfl⟩ ⟨holds, rfl⟩ noLiteral
    rcases lawful.leave fits holds noLiteral with ⟨grows, fits⟩
    exact ⟨grows, fits, rfl⟩
  lookup := by
    rintro state _ ident ctx _ ⟨fits, rfl⟩ ⟨_, rfl⟩
    cases found : interpreter.lookup ctx ident.name state with
    | none => exact .none
    | some val => exact .some ⟨lawful.lookup fits found, rfl⟩
  create := by
    rintro state _ token params body ctx _ ⟨fits, rfl⟩ ⟨stands, rfl⟩
    rcases lawful.create fits stands with ⟨grows, fits, holds⟩
    exact ⟨grows, ⟨fits, rfl⟩, holds, rfl⟩
  bindName := by
    rintro state _ token name expr ctx _ val _ ⟨fits, rfl⟩ ⟨stands, rfl⟩ ⟨holds, rfl⟩
    rcases lawful.bindName fits stands holds with ⟨grows, fits⟩
    exact ⟨grows, fits, rfl⟩
  openInside := by
    rintro state _ block ctx _ ⟨fits, rfl⟩ ⟨stands, rfl⟩
    exact (lawful.openInside fits stands).relation
  openCall := by
    rintro state _ val _ closure closure' args args' ⟨fits, rfl⟩ ⟨holds, rfl⟩ isValue isValue' like
    rw [isValue] at isValue'
    cases isValue'
    rcases (List.forall₂_and_left _ _).1 like with ⟨holdArgs, same⟩
    rw [List.forall₂_eq_eq_eq] at same
    rw [← same]
    exact (lawful.openCall fits holds isValue holdArgs).relation

/-- The execution has kept the invariant, whatever it ended with. -/
structure Kept (invariant : interpreter.Invariant) (before : State)
    (holds : State → Result → Prop) (ended : Except Stop Result × State) : Prop where
  grows : invariant.Grows before ended.2
  fits : invariant.Fits ended.2
  ok {result : Result} : ended.1 = .ok result → holds ended.2 result
  stopped {stop : Stop} : ended.1 = .error stop →
    (∃ val, stop = interpreter.returned val ∧ invariant.Holds ended.2 val) ∨
      ∃ fault, stop = interpreter.failed fault ∧ invariant.MayFail ended.2 fault

theorem kept_of_ends {before : State} {holds : State → Result → Result' → Prop}
    {only : State → Result → Prop} {ended : Except Stop Result × State}
    {ended' : Except Stop Result' × State}
    (ends : invariant.relation.Ends before holds ended ended')
    (imp : ∀ {state result result'}, holds state result result' → only state result) :
    invariant.Kept before only ended := by
  cases ends with
  | ok grows fits held => exact ⟨grows, fits.1, by rintro _ ⟨⟩; exact imp held, nofun⟩
  | returned grows fits like =>
      exact ⟨grows, fits.1, nofun, by rintro _ ⟨⟩; exact .inl ⟨_, rfl, like.1⟩⟩
  | failed grows fits mayFail =>
      exact ⟨grows, fits.1, nofun, by rintro _ ⟨⟩; exact .inr ⟨_, rfl, mayFail⟩⟩
  | excused excused => exact absurd excused id

end Interpreter.Invariant

section Invariants

variable {State Stop Val Ctx : Type} {interpreter : Interpreter State Stop Val Ctx}
  {invariant : interpreter.Invariant} {state : State} {ctx : Ctx}

open Interpreter.Invariant

theorem Expr.kept_run (lawful : invariant.Lawful) (room : Nat) (expr : Expr)
    (fits : invariant.Fits state) (stands : invariant.Stands state (.expr expr) ctx) :
    invariant.Kept state invariant.Holds
      (expr.run interpreter (Closure.run interpreter room) ctx state) :=
  kept_of_ends (expr.ends_run lawful.relation room ⟨fits, rfl⟩ ⟨stands, rfl⟩) And.left

theorem kept_runExprs (lawful : invariant.Lawful) (room : Nat) (exprs : List Expr)
    (fits : invariant.Fits state)
    (stand : ∀ expr ∈ exprs, invariant.Stands state (.expr expr) ctx) :
    invariant.Kept state (fun state vals => ∀ val ∈ vals, invariant.Holds state val)
      (runExprs interpreter (Closure.run interpreter room) ctx exprs state) :=
  kept_of_ends (ends_runExprs lawful.relation room exprs ⟨fits, rfl⟩ fun expr expr_mem =>
    ⟨stand expr expr_mem, rfl⟩) fun like => ((List.forall₂_and_left _ _).1 like).1

theorem Stmt.kept_run (lawful : invariant.Lawful) (room : Nat) (stmt : Stmt)
    (fits : invariant.Fits state) (stands : invariant.Stands state (.stmt stmt) ctx) :
    invariant.Kept state invariant.Holds
      (stmt.run interpreter (Closure.run interpreter room) ctx state) :=
  kept_of_ends (stmt.ends_run lawful.relation room ⟨fits, rfl⟩ ⟨stands, rfl⟩) And.left

theorem kept_runStmts (lawful : invariant.Lawful) (room : Nat) (stmts : List Stmt)
    (fits : invariant.Fits state) (stand : ∀ stmt ∈ stmts, invariant.Stands state (.stmt stmt) ctx)
    {last : Val} (holds : invariant.Holds state last) :
    invariant.Kept state invariant.Holds
      (runStmts interpreter (Closure.run interpreter room) ctx last stmts state) :=
  kept_of_ends (ends_runStmts lawful.relation room stmts ⟨fits, rfl⟩
    (fun stmt stmt_mem => ⟨stand stmt stmt_mem, rfl⟩) ⟨holds, rfl⟩) And.left

end Invariants

section Evaluator

variable {invariant : Eval.interpreter.Invariant} {store : Store} {scope : ScopeId}

theorem Expr.kept_eval (lawful : invariant.Lawful) (room : Nat) (expr : Expr)
    (fits : invariant.Fits store) (stands : invariant.Stands store (.expr expr) scope) :
    invariant.Kept store invariant.Holds (expr.eval (Closure.enter room) scope store) := by
  rw [← Expr.run_eq_eval]
  exact expr.kept_run lawful room fits stands

theorem kept_evalExprs (lawful : invariant.Lawful) (room : Nat) (exprs : List Expr)
    (fits : invariant.Fits store)
    (stand : ∀ expr ∈ exprs, invariant.Stands store (.expr expr) scope) :
    invariant.Kept store (fun store values => ∀ value ∈ values, invariant.Holds store value)
      (evalExprs (Closure.enter room) scope exprs store) := by
  rw [← runExprs_eq_evalExprs]
  exact kept_runExprs lawful room exprs fits stand

theorem Stmt.kept_eval (lawful : invariant.Lawful) (room : Nat) (stmt : Stmt)
    (fits : invariant.Fits store) (stands : invariant.Stands store (.stmt stmt) scope) :
    invariant.Kept store invariant.Holds (stmt.eval (Closure.enter room) scope store) := by
  rw [← Stmt.run_eq_eval]
  exact stmt.kept_run lawful room fits stands

theorem kept_evalStmts (lawful : invariant.Lawful) (room : Nat) (stmts : List Stmt)
    (fits : invariant.Fits store)
    (stand : ∀ stmt ∈ stmts, invariant.Stands store (.stmt stmt) scope)
    {last : Value} (holds : invariant.Holds store last) :
    invariant.Kept store invariant.Holds
      (evalStmts (Closure.enter room) scope last stmts store) := by
  rw [← runStmts_eq_evalStmts]
  exact kept_runStmts lawful room stmts fits stand holds

end Evaluator

end Scriptlet
