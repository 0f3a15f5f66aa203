import Scriptlet.Proofs.Eval.Frame
import Scriptlet.Proofs.Eval.Integrity
import Scriptlet.Proofs.Tree.Nodes

/-!
# Evaluation beside an interlude

Suppose that something else is evaluated in between. It leaves its own scopes behind, so that scopes
opened later have larger numbers than they would have otherwise, and it binds certain names anew.
`Interlude` says which names and which numbers.

Trees in which these names do not occur take no notice. Their evaluations in the store without the
interlude and in the one with it proceed in step: the stores stay alike up to the numbers of scopes
and apart from the names, and so do values, faults and what a `return` carries. Function bodies that
are stored away may be called at any later time, so that they do not use the names is part of what it
means for stores to be alike.
-/

namespace Scriptlet

/-- What an evaluation in between leaves behind. -/
structure Interlude where
  /-- The names that it binds. -/
  names : List String
  /-- How many scopes there are when it begins. -/
  start : Nat
  /-- How many scopes it opens. -/
  opened : Nat

namespace Interlude

/-- Nothing happens in between. -/
def idle (names : List String) : Interlude := ⟨names, 0, 0⟩

/-- The number that a scope has with the interlude. -/
def shift (interlude : Interlude) (id : Nat) : Nat :=
  if id < interlude.start then id else id + interlude.opened

variable {interlude : Interlude} {id other : Nat}

theorem shift_of_lt (older : id < interlude.start) : interlude.shift id = id := by
  simp [shift, older]

theorem shift_of_le (newer : interlude.start ≤ id) :
    interlude.shift id = id + interlude.opened := by
  have notOlder : ¬id < interlude.start := by omega
  simp [shift, notOlder]

theorem shift_idle (names : List String) (id : Nat) : (idle names).shift id = id := by
  simp [shift, idle]

theorem shift_lt_shift_iff : interlude.shift id < interlude.shift other ↔ id < other := by
  unfold shift
  split <;> split <;> omega

theorem shift_eq_shift_iff : interlude.shift id = interlude.shift other ↔ id = other := by
  unfold shift
  split <;> split <;> omega

end Interlude

variable {interlude : Interlude}

/-- The same function, created in the same scope, whose body does not use the names. -/
structure Closure.Alike (interlude : Interlude) (closure other : Closure) : Prop where
  params : other.params = closure.params
  body : other.body = closure.body
  scope : other.scope = interlude.shift closure.scope
  avoids : Avoids interlude.names closure.body.nodes

inductive Value.Alike (interlude : Interlude) : Value → Value → Prop
  | int (value : Int64) : Value.Alike interlude (.int value) (.int value)
  | bool (value : Bool) : Value.Alike interlude (.bool value) (.bool value)
  | null : Value.Alike interlude .null .null
  | function {closure other : Closure} (alike : closure.Alike interlude other) :
      Value.Alike interlude (.function closure) (.function other)

/-- Scopes in the same place with the same bindings, apart from the names. -/
structure Scope.Alike (interlude : Interlude) (scope other : Scope) : Prop where
  outer : other.outer = scope.outer.map interlude.shift
  find? : ∀ name ∉ interlude.names,
    Option.Rel (Value.Alike interlude) (scope.find? name) (other.find? name)

structure Store.Alike (interlude : Interlude) (store other : Store) : Prop where
  start_le : interlude.start ≤ store.scopes.size
  size_eq : other.scopes.size = store.scopes.size + interlude.opened
  scopes : ∀ {id : ScopeId} {scope : Scope}, store.scopes[id]? = some scope →
    ∃ there, other.scopes[interlude.shift id]? = some there ∧ scope.Alike interlude there

namespace Value.Alike

variable {value other : Value}

theorem type_eq (alike : value.Alike interlude other) : other.type = value.type := by
  cases alike <;> rfl

theorem isNull_eq (alike : value.Alike interlude other) : other.isNull = value.isNull := by
  cases alike <;> rfl

theorem display_eq (alike : value.Alike interlude other) : other.display = value.display := by
  cases alike with
  | function alike => simp [Value.display, Closure.display, alike.params, alike.body]
  | int | bool | null => rfl

/-- Values that are no functions are alike only to themselves. -/
theorem of_plain (plain : value.Plain) : value.Alike interlude value := by
  cases value with
  | int value => exact .int value
  | bool value => exact .bool value
  | null => exact .null
  | function closure => exact absurd plain id

theorem resembles (alike : value.Alike interlude other) : value.Resembles other := by
  cases alike with
  | function alike => exact .functions alike.params alike.body
  | int | bool | null => exact .refl _

end Value.Alike

namespace Scope.Alike

variable {scope other : Scope}

theorem bind (alike : scope.Alike interlude other) {value there : Value}
    (same : value.Alike interlude there) (name : String) :
    (scope.bind name value).Alike interlude (other.bind name there) := by
  refine ⟨alike.outer, ?_⟩
  intro looked visible
  by_cases isBound : looked = name
  · subst isBound
    rw [find?_bind_self, find?_bind_self]
    exact .some same
  · rw [find?_bind_of_ne scope value isBound, find?_bind_of_ne other there isBound]
    exact alike.find? looked visible

theorem bindAll {args there : List Value} (names : List String)
    (same : List.Forall₂ (Value.Alike interlude) args there) (alike : scope.Alike interlude other) :
    (scope.bindAll (names.zip args)).Alike interlude (other.bindAll (names.zip there)) := by
  induction same generalizing names scope other with
  | nil => simpa [Scope.bindAll] using alike
  | cons first _ ih =>
      cases names with
      | nil => simpa [Scope.bindAll] using alike
      | cons name names => exact ih names (alike.bind first name)

end Scope.Alike

namespace Store.Alike

variable {store other : Store}

theorem scopes_none (alike : store.Alike interlude other) {id : ScopeId}
    (missing : store.scopes[id]? = none) : other.scopes[interlude.shift id]? = none := by
  have start_le := alike.start_le
  have size_eq := alike.size_eq
  rw [Array.getElem?_eq_none_iff] at missing ⊢
  rw [Interlude.shift_of_le (by omega)]
  omega

theorem get? (alike : store.Alike interlude other) {name : String}
    (visible : name ∉ interlude.names) (id : ScopeId) :
    Option.Rel (Value.Alike interlude) (store.get? id name)
      (other.get? (interlude.shift id) name) := by
  induction id using Nat.strongRecOn with
  | _ id ih =>
      rw [Store.get?, Store.get?]
      cases found : store.scopes[id]? with
      | none =>
          rw [alike.scopes_none found]
          exact .none
      | some scope =>
          rcases alike.scopes found with ⟨there, foundThere, same⟩
          have bindings := same.find? name visible
          rw [foundThere]
          dsimp only
          rcases bound : scope.find? name with _ | value <;>
            rcases boundThere : there.find? name with _ | valueThere <;>
            rw [bound, boundThere] at bindings
          · rw [same.outer]
            cases scope.outer with
            | none => exact .none
            | some outer =>
                simp only [Option.map_some, Interlude.shift_lt_shift_iff]
                split
                · next older => exact ih outer older
                · exact .none
          · cases bindings
          · cases bindings
          · exact bindings

theorem push (alike : store.Alike interlude other) {scope there : Scope}
    (same : scope.Alike interlude there) :
    (other.push there).1 = interlude.shift (store.push scope).1 ∧
      (store.push scope).2.Alike interlude (other.push there).2 := by
  have start_le := alike.start_le
  have size_eq := alike.size_eq
  have shifted : other.scopes.size = interlude.shift store.scopes.size := by
    rw [Interlude.shift_of_le start_le, size_eq]
  refine ⟨shifted, ?_, ?_, ?_⟩
  · simp [Store.push]
    omega
  · simp [Store.push]
    omega
  · intro id found isFound
    rcases getElem?_push_eq_some isFound with older | ⟨rfl, rfl⟩
    · rcases alike.scopes older with ⟨thereOld, foundThere, sameOld⟩
      exact ⟨thereOld, other.extends_push there _ trivial _ foundThere, sameOld⟩
    · refine ⟨there, ?_, same⟩
      simp [Store.push, ← shifted]

theorem set (alike : store.Alike interlude other) {value there : Value}
    (same : value.Alike interlude there) (scope : ScopeId) (name : String) :
    (store.set scope name value).Alike interlude
      (other.set (interlude.shift scope) name there) := by
  refine ⟨by simpa [Store.set] using alike.start_le, by simpa [Store.set] using alike.size_eq, ?_⟩
  intro id changed found
  simp only [Store.set, Array.getElem?_modify, Interlude.shift_eq_shift_iff] at found ⊢
  split at found
  · next isScope =>
      rcases Option.map_eq_some_iff.1 found with ⟨old, oldFound, rfl⟩
      rcases alike.scopes oldFound with ⟨oldThere, foundThere, sameOld⟩
      exact ⟨oldThere.bind name there, by simp [isScope, foundThere], sameOld.bind same name⟩
  · next otherScope =>
      rcases alike.scopes found with ⟨oldThere, foundThere, sameOld⟩
      exact ⟨oldThere, by simp [otherScope, foundThere], sameOld⟩

end Store.Alike

/-- Evaluations beside an interlude, of trees that do not use its names. -/
def Eval.beside (interlude : Interlude) : Eval.interpreter.Relation Eval.interpreter where
  Grows _ _ := True
  Fits := Store.Alike interlude
  Like _ := Value.Alike interlude
  Stands _ node scope there := there = interlude.shift scope ∧ Avoids interlude.names node.nodes

theorem Eval.opens_beside {interlude : Interlude} {store other : Store} {scope there : Scope}
    {block : Block} (stores : store.Alike interlude other) (alike : scope.Alike interlude there)
    (avoids : Avoids interlude.names (Node.block block).nodes) :
    (Eval.beside interlude).Opens store (store.push scope) (other.push there) block := by
  rcases stores.push alike with ⟨shifted, after⟩
  refine ⟨trivial, after, fun stmt stmt_mem => ⟨shifted, ?_⟩⟩
  exact avoids.mono (Node.nodes_subset_of_mem_children (by simp [Node.children, stmt_mem]))

theorem Eval.lawful_beside (interlude : Interlude) : (Eval.beside interlude).Lawful := by
  constructor
  case like_mono => exact fun alike _ => alike
  case stands_mono => exact fun stands _ => stands
  case plain => exact fun _ _ isPlain => .of_plain isPlain
  case resembles => exact fun alike => alike.resembles
  case child =>
    rintro _ node _ _ ⟨shifted, avoids⟩ _ inner isChild
    exact ⟨shifted, avoids.mono (Node.nodes_subset_of_mem_children isChild)⟩
  case visit => exact fun stores _ => ⟨trivial, stores, fun _ _ => trivial⟩
  case leave => exact fun stores _ _ => ⟨trivial, stores⟩
  case lookup =>
    rintro store there ident scope _ stores ⟨rfl, avoids⟩
    exact stores.get? (by simpa [Node.nodes, Expr.nodes] using avoids) scope
  case create =>
    rintro store there token params body scope _ stores ⟨rfl, avoids⟩
    have avoidsBody : Avoids interlude.names body.nodes := by
      simpa [Node.nodes, Expr.nodes] using avoids
    exact ⟨trivial, ⟨stores.start_le, stores.size_eq, stores.scopes⟩,
      .function ⟨rfl, rfl, rfl, avoidsBody⟩⟩
  case bindName =>
    rintro store there token name expr scope _ value other stores ⟨rfl, _⟩ alike
    exact ⟨trivial, stores.set alike scope name.name⟩
  case openInside =>
    rintro store there block scope _ stores ⟨rfl, avoids⟩
    exact Eval.opens_beside stores ⟨rfl, fun _ _ => .none⟩ avoids
  case openCall =>
    intro store there value other closure closure' args argsThere stores alike isValue isValue' same
    cases isValue
    cases isValue'
    cases alike with
    | function alike =>
        have opened : Scope.Alike interlude { outer := some closure.scope }
            { outer := some closure'.scope } := ⟨by simp [alike.scope], fun _ _ => .none⟩
        simp only [Eval.interpreter, Store.openCall, alike.params]
        exact Eval.opens_beside stores (opened.bindAll _ same) alike.avoids
  all_goals intros; trivial

theorem alike_evalStmts {interlude : Interlude} {store there : Store} (room : Nat) (scope : ScopeId)
    {stmts : List Stmt} (avoids : Avoids interlude.names (nodesOfStmts stmts))
    (stores : store.Alike interlude there) {last other : Value}
    (alike : last.Alike interlude other) :
    (Eval.beside interlude).Ends store (Eval.beside interlude).Like
      (evalStmts (Closure.enter room) scope last stmts store)
      (evalStmts (Closure.enter room) (interlude.shift scope) other stmts there) := by
  rw [← runStmts_eq_evalStmts, ← runStmts_eq_evalStmts]
  refine ends_runStmts (Eval.lawful_beside interlude) room stmts stores ?_ alike
  rw [nodesOfStmts_eq_flatMap] at avoids
  intro stmt stmt_mem
  exact ⟨rfl, avoids.mono fun _ node_mem => List.mem_flatMap.2 ⟨stmt, stmt_mem, node_mem⟩⟩

theorem Eval.settle_alike {interlude : Interlude} {evaluation other : Eval Value}
    {store there : Store}
    (ends : (Eval.beside interlude).Ends store (Eval.beside interlude).Like (evaluation store)
      (other there)) :
    ((∃ value otherValue, (evaluation.settle store).1 = .ok value ∧
        (other.settle there).1 = .ok otherValue ∧ value.Alike interlude otherValue) ∨
      ∃ fault, (evaluation.settle store).1 = .error fault ∧
        (other.settle there).1 = .error fault) ∧
      (evaluation.settle store).2.Alike interlude (other.settle there).2 := by
  unfold Eval.settle
  generalize evaluation store = ended at ends
  generalize other there = endedThere at ends
  cases ends with
  | ok _ stores alike => exact ⟨.inl ⟨_, _, rfl, rfl, alike⟩, stores⟩
  | returned _ stores alike => exact ⟨.inl ⟨_, _, rfl, rfl, alike⟩, stores⟩
  | failed _ stores => exact ⟨.inr ⟨_, rfl, rfl⟩, stores⟩
  | excused excused => exact absurd excused id

/-! ## The interlude itself -/

namespace Store

/-- Every scope is still there, in its place, and binds what it bound before, apart from certain
names. -/
def KeepsExcept (names : List String) (before after : Store) : Prop :=
  ∀ (id : ScopeId) (scope : Scope), before.scopes[id]? = some scope →
    ∃ changed, after.scopes[id]? = some changed ∧ changed.outer = scope.outer ∧
      ∀ name ∉ names, changed.find? name = scope.find? name

variable {names : List String} {before middle after : Store}

theorem KeepsExcept.trans (first : before.KeepsExcept names middle)
    (second : middle.KeepsExcept names after) : before.KeepsExcept names after := by
  intro id scope found
  rcases first id scope found with ⟨between, foundBetween, outerBetween, sameBetween⟩
  rcases second id between foundBetween with ⟨changed, foundAfter, outerAfter, sameAfter⟩
  refine ⟨changed, foundAfter, outerAfter.trans outerBetween, ?_⟩
  intro name kept
  rw [sameAfter name kept, sameBetween name kept]

theorem Extends.keepsExcept (extended : before.Extends after) : before.KeepsExcept names after :=
  fun id scope found => ⟨scope, extended id trivial scope found, rfl, fun _ _ => rfl⟩

theorem Binds.keepsExcept {scope : ScopeId} {name : String} {value : Value}
    (binds : before.Binds scope name value after) (bound : name ∈ names) :
    before.KeepsExcept names after := by
  intro id old found
  by_cases isScope : id = scope
  · subst isScope
    rcases binds.here old found with ⟨changed, foundChanged, outer, _, others⟩
    refine ⟨changed, foundChanged, outer, ?_⟩
    intro looked kept
    apply others
    rintro rfl
    exact kept bound
  · exact ⟨old, binds.elsewhere id isScope old found, rfl, fun _ _ => rfl⟩

end Store

/-- The name that a statement binds in its own scope, if it is a `let`. -/
def Stmt.boundName? : Stmt → Option String
  | .letBind _ name _ => some name.name
  | .ret _ _ | .expr _ _ | .block _ => none

theorem Stmt.boundName?_of_binding? {enter : Enter} {scope : ScopeId} {store : Store} {stmt : Stmt}
    {name : String} {value : Value} (made : stmt.binding? enter scope store = some (name, value)) :
    stmt.boundName? = some name := by
  cases stmt with
  | letBind token ident expr =>
      rw [Stmt.binding?] at made
      split at made <;> cases made
      rfl
  | ret | expr | block => cases made

theorem Stmt.keepsExcept_eval (room : Nat) {names : List String} {stmt : Stmt}
    (bound : ∀ name ∈ stmt.boundName?, name ∈ names) (scope : ScopeId) (store : Store) :
    store.KeepsExcept names (stmt.eval (Closure.enter room) scope store).2 := by
  rcases stmt.changes_eval room scope store with ⟨binds, extended⟩
  cases made : stmt.binding? (Closure.enter room) scope store with
  | none => exact (extended made).keepsExcept
  | some binding =>
      rcases binding with ⟨name, value⟩
      exact (binds name value made).keepsExcept (bound name (Stmt.boundName?_of_binding? made))

theorem keepsExcept_evalStmts (room : Nat) {names : List String} (scope : ScopeId) {last : Value}
    {stmts : List Stmt} (bound : ∀ stmt ∈ stmts, ∀ name ∈ stmt.boundName?, name ∈ names)
    (store : Store) :
    store.KeepsExcept names (evalStmts (Closure.enter room) scope last stmts store).2 := by
  induction stmts generalizing last store with
  | nil => exact Store.Extends.keepsExcept fun _ _ _ found => found
  | cons stmt stmts ih =>
      rw [List.forall_mem_cons] at bound
      have first := Stmt.keepsExcept_eval room bound.1 scope store
      rw [evalStmts]
      rcases done : stmt.eval (Closure.enter room) scope store with ⟨interrupt | value, middle⟩ <;>
        rw [done] at first
      · rw [Eval.bind_of_error done]
        exact first
      · rw [Eval.bind_of_ok done]
        exact first.trans (ih bound.2 middle)

theorem Value.Alike.of_idle {names : List String} {start : Nat} {value there : Value}
    (alike : value.Alike (.idle names) there) (within : value.Within start) (opened : Nat) :
    value.Alike ⟨names, start, opened⟩ value := by
  cases alike with
  | int value => exact .int value
  | bool value => exact .bool value
  | null => exact .null
  | function alike =>
      exact .function ⟨rfl, rfl, (Interlude.shift_of_lt within).symm, alike.avoids⟩

/-- The interlude begins in a store whose functions do not use its names, and leaves all scopes as
they were but for these names. Then the store before is like the one after. -/
theorem Store.Intact.alike {names : List String} {before after : Store} (intact : before.Intact)
    (clean : before.Alike (.idle names) before) (keeps : before.KeepsExcept names after)
    (grown : before.scopes.size ≤ after.scopes.size) :
    before.Alike ⟨names, before.scopes.size, after.scopes.size - before.scopes.size⟩ after := by
  refine ⟨Nat.le_refl _, by simp only; omega, ?_⟩
  intro id scope found
  have inside : id < before.scopes.size := (Array.getElem?_eq_some_iff.1 found).1
  rcases keeps id scope found with ⟨changed, foundAfter, outer_eq, same⟩
  have self : scope.Alike (.idle names) scope := by
    rcases clean.scopes found with ⟨there, foundThere, alike⟩
    rw [Interlude.shift_idle, found] at foundThere
    cases foundThere
    exact alike
  rw [Interlude.shift_of_lt inside]
  refine ⟨changed, foundAfter, ?_, ?_⟩
  · rw [outer_eq]
    cases lies : scope.outer with
    | none => rfl
    | some outer =>
        have older := intact.outer found outer lies
        rw [Option.map_some, Interlude.shift_of_lt (Nat.lt_trans older inside)]
  · intro name visible
    rw [same name visible]
    have alike := self.find? name visible
    cases bound : scope.find? name with
    | none => exact .none
    | some value =>
        rw [bound] at alike
        have within := intact.bindings found _ (Scope.mem_of_find? bound)
        cases alike with
        | some alike => exact .some (alike.of_idle within _)

end Scriptlet
