import Scriptlet.Proofs.Eval.Frame
import Scriptlet.Proofs.Eval.Integrity
import Scriptlet.Proofs.Eval.Visits

/-!
# Scopes follow the source

Wherever a node is evaluated, the scopes outward are as many as its place in the source says: the
global one, and one for each block around the node. Blocks open their scope inside the one that they
are evaluated in. A call opens one too, but inside the scope that the function was created in, and
the body of the function opens none of its own.

The invariant is that every function in the store stands where it was created, in a scope as deep as
its literal lies in the source. It outlives the evaluation that created the function because scopes
stay where they are: from then on stores and watches only grow.
-/

namespace Scriptlet

namespace Store

/-- There are so many scopes from this one outward, itself included. -/
inductive Chain (store : Store) : ScopeId → Nat → Prop
  | global {id : ScopeId} {scope : Scope} (found : store.scopes[id]? = some scope)
      (isGlobal : scope.outer = none) : Chain store id 1
  | inside {id outer : ScopeId} {scope : Scope} {length : Nat}
      (found : store.scopes[id]? = some scope) (isInside : scope.outer = some outer)
      (chain : Chain store outer length) : Chain store id (length + 1)

/-- Every scope is still there and lies where it lay, with whatever bindings. -/
def Grows (before after : Store) : Prop :=
  ∀ (id : ScopeId) (scope : Scope), before.scopes[id]? = some scope →
    ∃ later, after.scopes[id]? = some later ∧ later.outer = scope.outer

variable {store before middle after : Store} {id : ScopeId} {length : Nat}

theorem Chain.unique (chain : store.Chain id length) {other : Nat} (again : store.Chain id other) :
    other = length := by
  induction chain generalizing other with
  | global found isGlobal =>
      cases again with
      | global => rfl
      | inside foundAgain isInside =>
          cases found.symm.trans foundAgain
          cases isGlobal.symm.trans isInside
  | inside found isInside _ ih =>
      cases again with
      | global foundAgain isGlobal =>
          cases found.symm.trans foundAgain
          cases isGlobal.symm.trans isInside
      | inside foundAgain isInsideAgain rest =>
          cases found.symm.trans foundAgain
          cases isInside.symm.trans isInsideAgain
          rw [ih rest]

theorem Grows.refl (store : Store) : store.Grows store :=
  fun _ scope found => ⟨scope, found, rfl⟩

theorem Grows.trans (first : before.Grows middle) (second : middle.Grows after) :
    before.Grows after := by
  intro id scope found
  rcases first id scope found with ⟨later, foundLater, same⟩
  rcases second id later foundLater with ⟨last, foundLast, sameAgain⟩
  exact ⟨last, foundLast, sameAgain.trans same⟩

theorem grows_push (store : Store) (new : Scope) : store.Grows (store.push new).2 :=
  fun id scope found => ⟨scope, store.extends_push new id trivial scope found, rfl⟩

theorem grows_set (store : Store) (target : ScopeId) (name : String) (value : Value) :
    store.Grows (store.set target name value) := by
  intro id scope found
  by_cases same : target = id
  · refine ⟨scope.bind name value, ?_, rfl⟩
    simp [Store.set, Array.getElem?_modify, same, found]
  · exact ⟨scope, store.keeps_set target name value id (Ne.symm same) scope found, rfl⟩

theorem Chain.mono (chain : before.Chain id length) (grows : before.Grows after) :
    after.Chain id length := by
  induction chain with
  | global found isGlobal =>
      rcases grows _ _ found with ⟨later, foundLater, same⟩
      exact .global foundLater (same.trans isGlobal)
  | inside found isInside _ ih =>
      rcases grows _ _ found with ⟨later, foundLater, same⟩
      exact .inside foundLater (same.trans isInside) ih

theorem Chain.push (chain : store.Chain id length) {new : Scope} (isInside : new.outer = some id) :
    (store.push new).2.Chain (store.push new).1 (length + 1) :=
  .inside (by simp [Store.push]) isInside (chain.mono (store.grows_push new))

end Store

/-- The node stands in one of the programs with these nodes around it. -/
def Placed (programs : List Program) (node : Node) (around : List Node) : Prop :=
  ∃ program ∈ programs, program.Places node around

/-- A node is evaluated at its place, in a scope that lies as deep as the place. -/
structure Visit.Lexical (programs : List Program) (visit : Visit) : Prop where
  placed : Placed programs visit.node visit.around
  chain : visit.store.Chain visit.scope (lexicalDepth visit.around)

namespace Watch

/-- Scopes, origins of functions and visits are still there. -/
structure Grows (before after : Watch) : Prop where
  store : before.store.Grows after.store
  origins : ∀ {id : Nat} {origin : List Node}, before.origins[id]? = some origin →
    after.origins[id]? = some origin
  visits : before.visits ⊆ after.visits

theorem Grows.refl (watch : Watch) : watch.Grows watch :=
  ⟨.refl _, id, List.Subset.refl _⟩

theorem Grows.trans {before middle after : Watch} (first : before.Grows middle)
    (second : middle.Grows after) : before.Grows after :=
  ⟨first.store.trans second.store, fun found => second.origins (first.origins found),
    List.Subset.trans first.visits second.visits⟩

/-- The node has its place in one of the programs, and the scope lies as deep as this place. -/
structure Stands (programs : List Program) (watch : Watch) (scope : ScopeId) (node : Node)
    (around : List Node) : Prop where
  placed : Placed programs node around
  chain : watch.store.Chain scope (lexicalDepth around)

/-- The fault was raised by one of the nodes that were visited. -/
def Raised (watch : Watch) (fault : Fault) : Prop :=
  ∃ visit ∈ watch.visits, visit.node.Raises fault

variable {programs : List Program} {watch larger : Watch} {scope : ScopeId} {node : Node}
  {around : List Node}

theorem Stands.mono (stands : watch.Stands programs scope node around)
    (grows : watch.Grows larger) : larger.Stands programs scope node around :=
  ⟨stands.placed, stands.chain.mono grows.store⟩

/-- What is directly below a statement or an expression is evaluated in the same scope. -/
theorem Stands.child (stands : watch.Stands programs scope node around) (child : Node)
    (isChild : child ∈ node.children) (sameDepth : node.isBlock = false) :
    watch.Stands programs scope child (node :: around) := by
  rcases stands with ⟨⟨program, program_mem, places⟩, chain⟩
  refine ⟨⟨program, program_mem, places.inside isChild⟩, ?_⟩
  rwa [lexicalDepth_cons_of_isBlock_eq_false sameDepth]

/-- The statements of a block stand one scope deeper than the block. -/
theorem stands_statements {block : Block} (placed : Placed programs (.block block) around)
    (chain : watch.store.Chain scope (lexicalDepth around + 1)) :
    ∀ stmt ∈ block.statements,
      watch.Stands programs scope (.stmt stmt) (.block block :: around) := by
  intro stmt stmt_mem
  rcases placed with ⟨program, program_mem, places⟩
  refine ⟨⟨program, program_mem, places.inside ?_⟩, ?_⟩
  · simp [Node.children, stmt_mem]
  · simpa using chain

theorem Raised.mono {fault : Fault} (raised : watch.Raised fault) (grows : watch.Grows larger) :
    larger.Raised fault := by
  rcases raised with ⟨visit, visit_mem, raises⟩
  exact ⟨visit, grows.visits visit_mem, raises⟩

end Watch

/-- The literal that the function was created from is known, and stands in the function's scope. -/
def Closure.Rooted (programs : List Program) (watch : Watch) (closure : Closure) : Prop :=
  ∃ token around,
    let literal := Node.expr (.function token closure.params closure.body)
    watch.origins[closure.id]? = some (literal :: around) ∧
      watch.Stands programs closure.scope literal around

def Value.Rooted (programs : List Program) (watch : Watch) : Value → Prop
  | .function closure => closure.Rooted programs watch
  | .int _ | .bool _ | .null => True

/-- All functions in the store are rooted, and all nodes were evaluated in the scopes that they
stand in. -/
structure Watch.Lexical (programs : List Program) (watch : Watch) : Prop where
  counted : watch.origins.size = watch.store.functions
  bindings : ∀ {id : ScopeId} {scope : Scope}, watch.store.scopes[id]? = some scope →
    ∀ binding ∈ scope.bindings, binding.2.Rooted programs watch
  visits : ∀ visit ∈ watch.visits, visit.Lexical programs

section Rooted

variable {programs : List Program} {watch larger : Watch}

theorem Value.Rooted.mono {value : Value} (rooted : value.Rooted programs watch)
    (grows : watch.Grows larger) : value.Rooted programs larger := by
  cases value with
  | function closure =>
      rcases rooted with ⟨token, around, created, stands⟩
      exact ⟨token, around, grows.origins created, stands.mono grows⟩
  | int | bool | null => trivial

theorem Value.Rooted.of_plain {value : Value} (plain : value.Plain) :
    value.Rooted programs watch := by
  cases value with
  | function closure => exact absurd plain id
  | int | bool | null => trivial

theorem Watch.grows_store {store : Store} (grows : watch.store.Grows store) :
    watch.Grows { watch with store } :=
  ⟨grows, id, List.Subset.refl _⟩

theorem Watch.Lexical.store (lexical : watch.Lexical programs) {store : Store}
    (grows : watch.store.Grows store) (functions : store.functions = watch.store.functions)
    (bindings : ∀ {id : ScopeId} {scope : Scope}, store.scopes[id]? = some scope →
      ∀ binding ∈ scope.bindings, binding.2.Rooted programs watch) :
    Watch.Lexical programs { watch with store } := by
  refine ⟨lexical.counted.trans functions.symm, ?_, lexical.visits⟩
  intro id scope found binding binding_mem
  exact (bindings found binding binding_mem).mono (Watch.grows_store grows)

theorem Watch.Lexical.push (lexical : watch.Lexical programs) {new : Scope}
    (rooted : ∀ binding ∈ new.bindings, binding.2.Rooted programs watch) :
    Watch.Lexical programs { watch with store := (watch.store.push new).2 } := by
  apply lexical.store (watch.store.grows_push new) rfl
  intro id scope found
  rcases Store.getElem?_push_eq_some found with older | ⟨_, rfl⟩
  · exact lexical.bindings older
  · exact rooted

theorem Watch.Lexical.set (lexical : watch.Lexical programs) {value : Value}
    (rooted : value.Rooted programs watch) (id : ScopeId) (name : String) :
    Watch.Lexical programs { watch with store := watch.store.set id name value } := by
  apply lexical.store (watch.store.grows_set id name value) rfl
  intro other scope found
  rcases Store.getElem?_set_eq_some found with ⟨old, oldFound, rfl | rfl⟩
  · exact lexical.bindings oldFound
  · exact Scope.forall_bind (lexical.bindings oldFound) rooted

theorem Watch.Lexical.rooted_get? (lexical : watch.Lexical programs) {id : ScopeId} {name : String}
    {value : Value} (found : watch.store.get? id name = some value) :
    value.Rooted programs watch := by
  rcases Store.exists_binding_of_get? found with ⟨other, scope, isScope, bound⟩
  exact lexical.bindings isScope _ bound

/-- A node that is evaluated where it stands may be noted. From then on it may raise its faults. -/
theorem Watch.Lexical.visit (lexical : watch.Lexical programs) {scope : ScopeId} {node : Node}
    {around : List Node} (stands : watch.Stands programs scope node around) :
    watch.Grows (watch.visit node around scope) ∧ (watch.visit node around scope).Lexical programs ∧
      ∀ fault, node.Raises fault → (watch.visit node around scope).Raised fault := by
  have grows : watch.Grows (watch.visit node around scope) :=
    ⟨.refl _, id, List.subset_cons_self _ _⟩
  refine ⟨grows, ⟨lexical.counted, ?_, ?_⟩, ?_⟩
  · intro id scope found binding binding_mem
    exact (lexical.bindings found binding binding_mem).mono grows
  · exact List.forall_mem_cons.2 ⟨⟨stands.placed, stands.chain⟩, lexical.visits⟩
  · exact fun fault raises => ⟨_, List.mem_cons_self, raises⟩

theorem Watch.Lexical.newFunction (lexical : watch.Lexical programs) {scope : ScopeId}
    {token : Token} {params : List Ident} {body : Block} {around : List Node}
    (stands : watch.Stands programs scope (.expr (.function token params body)) around) :
    let created :=
      watch.newFunction (.expr (.function token params body) :: around) params body scope
    watch.Grows created.2 ∧ created.2.Lexical programs ∧ created.1.Rooted programs created.2 := by
  intro created
  have grows : watch.Grows created.2 := by
    refine ⟨.refl _, ?_, List.Subset.refl _⟩
    intro id origin found
    have inside : id < watch.origins.size := (Array.getElem?_eq_some_iff.1 found).1
    simpa [created, Watch.newFunction, Array.getElem?_push, Nat.ne_of_lt inside] using found
  refine ⟨grows, ⟨?_, ?_, lexical.visits⟩, token, around, ?_, stands.mono grows⟩
  · simp [created, Watch.newFunction, Store.newFunction, lexical.counted]
  · intro id scope found binding binding_mem
    exact (lexical.bindings found binding binding_mem).mono grows
  · simp [created, Watch.newFunction, ← lexical.counted]

end Rooted

/-! ## The invariant -/

/-- Nodes are evaluated where they stand, and come to functions that are rooted. A fault is raised
by a node that was visited. -/
def Watch.scoping (programs : List Program) : Watch.interpreter.Invariant where
  Grows := Watch.Grows
  Fits := Watch.Lexical programs
  Holds := Value.Rooted programs
  Stands watch node place := watch.Stands programs place.1 node place.2
  MayFail := Watch.Raised

theorem Watch.opens_scoping {programs : List Program} {watch : Watch} {new : Scope}
    {outer : ScopeId} {block : Block} {around : List Node} (lexical : watch.Lexical programs)
    (isInside : new.outer = some outer) (placed : Placed programs (.block block) around)
    (chain : watch.store.Chain outer (lexicalDepth around))
    (rooted : ∀ binding ∈ new.bindings, binding.2.Rooted programs watch) :
    (Watch.scoping programs).Opens watch
      (((watch.store.push new).1, .block block :: around),
        { watch with store := (watch.store.push new).2 }) block :=
  ⟨Watch.grows_store (watch.store.grows_push new), lexical.push rooted,
    Watch.stands_statements placed (chain.push isInside)⟩

theorem Watch.lawful_scoping (programs : List Program) :
    (Watch.scoping programs).Lawful := by
  constructor
  case refl => exact Watch.Grows.refl
  case trans => exact Watch.Grows.trans
  case holds_mono => exact fun rooted grows => rooted.mono grows
  case stands_mono => exact fun stands grows => stands.mono grows
  case mayFail_mono => exact fun raised grows => raised.mono grows
  case plain => exact fun _ _ isPlain => .of_plain isPlain
  case child => exact fun stands noBlock inner isChild => stands.child inner isChild noBlock
  case visit => exact fun lexical stands => lexical.visit stands
  case leave => exact fun lexical _ _ => ⟨.refl _, lexical⟩
  case lookup => exact fun lexical found => lexical.rooted_get? found
  case create =>
    intro watch token params body place lexical stands
    rcases lexical.visit stands with ⟨visited, lexicalVisited, _⟩
    rcases lexicalVisited.newFunction (stands.mono visited) with ⟨created, lexicalCreated, rooted⟩
    exact ⟨visited.trans created, lexicalCreated, rooted⟩
  case bindName =>
    intro watch token name expr place value lexical _ rooted
    exact ⟨Watch.grows_store (watch.store.grows_set place.1 name.name value),
      lexical.set rooted place.1 name.name⟩
  case openInside =>
    intro watch block place lexical stands
    exact Watch.opens_scoping lexical rfl stands.placed stands.chain (by simp)
  case openCall =>
    intro watch value closure args lexical rooted isFunction argsRooted
    cases isFunction
    rcases rooted with ⟨token, around, created, stands⟩
    have body := stands.child (.block closure.body) (by simp [Node.children]) rfl
    have origin : watch.originOf closure =
        .expr (.function token closure.params closure.body) :: around := by
      simp [Watch.originOf, created]
    -- the place of the body comes from the literal, whatever calls led here
    simp only [Watch.interpreter, origin]
    refine Watch.opens_scoping lexical (Scope.outer_bindAll _ _) body.placed body.chain ?_
    refine Scope.forall_bindAll (by simp) fun binding binding_mem => ?_
    exact argsRooted _ (List.of_mem_zip binding_mem).2

end Scriptlet
