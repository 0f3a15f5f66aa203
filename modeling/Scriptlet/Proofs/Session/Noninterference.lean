import Mathlib.Control.Monad.Basic
import Scriptlet.Proofs.Eval.Simulation
import Scriptlet.Proofs.Parser.Names

/-!
# Sources that do not interfere

A source that is run in a session leaves three things behind: names bound at its top level, scopes
opened while it was evaluated, and nothing else. Sources that do not use these names give the same
results whether it was run or not, whatever became of it.
-/

namespace Scriptlet

/-- The names that a program binds at its top level, outside all blocks and function bodies. -/
def Program.boundNames (program : Program) : List String :=
  program.statements.filterMap Stmt.boundName?

namespace Session

/-- The results of running sources one after the other. -/
def results (session : Session) : List String → List (Except Failure (Option Value))
  | [] => []
  | source :: sources => (session.run source).1 :: (session.run source).2.results sources

/-- The session after running sources one after the other. -/
def runAll (session : Session) (sources : List String) : Session :=
  sources.foldl (fun session source => (session.run source).2) session

theorem results_append (session : Session) (before after : List String) :
    session.results (before ++ after) =
      session.results before ++ (session.runAll before).results after := by
  induction before generalizing session with
  | nil => rfl
  | cons source sources ih => simp [results, runAll, ih]

theorem length_results (session : Session) (sources : List String) :
    (session.results sources).length = sources.length := by
  induction sources generalizing session with
  | nil => rfl
  | cons source sources ih => simp [results, ih]

/-- What a run shows of its result: the type and the text of the value, that there is none, or the
failure. -/
def shown (result : Except Failure (Option Value)) : Except Failure (Option (ValueType × String)) :=
  result.map (·.map fun value => (value.type, value.display))

structure Alike (interlude : Interlude) (session other : Session) : Prop where
  globals : other.globals = interlude.shift session.globals
  store : session.store.Alike interlude other.store

variable {interlude : Interlude} {session other : Session}

/-- A source that does not mention the names shows the same result on both sides. -/
theorem Alike.run (alike : session.Alike interlude other) {source : String}
    (unmentioned : Unmentioned interlude.names (tokenize source)) :
    shown (other.run source).1 = shown (session.run source).1 ∧
      (session.run source).2.Alike interlude (other.run source).2 := by
  unfold Session.run
  cases parsed : Program.parse source with
  | error report => exact ⟨rfl, alike⟩
  | ok program =>
      have avoids := Program.avoids_of_parse parsed unmentioned
      have evaluated := Eval.settle_alike
        (alike_evalStmts callLimit session.globals avoids alike.store .null)
      simp only [Session.evalProgram, Program.evalIn, alike.globals]
      rcases evaluated with
        ⟨⟨value, there, done, doneThere, same⟩ | ⟨fault, failed, failedThere⟩, after⟩
      · simp only [done, doneThere, same.isNull_eq]
        refine ⟨?_, rfl, after⟩
        cases value.isNull
        · simp [shown, Except.map, same.type_eq, same.display_eq]
        · rfl
      · simp only [failed, failedThere]
        exact ⟨trivial, rfl, after⟩

theorem Alike.results (alike : session.Alike interlude other) {sources : List String}
    (unmentioned : ∀ source ∈ sources, Unmentioned interlude.names (tokenize source)) :
    (other.results sources).map shown = (session.results sources).map shown := by
  induction sources generalizing session other with
  | nil => rfl
  | cons source sources ih =>
      rw [List.forall_mem_cons] at unmentioned
      rcases alike.run unmentioned.1 with ⟨same, after⟩
      simp [Session.results, same, ih after unmentioned.2]

theorem Alike.runAll (alike : session.Alike interlude other) {sources : List String}
    (unmentioned : ∀ source ∈ sources, Unmentioned interlude.names (tokenize source)) :
    (session.runAll sources).Alike interlude (other.runAll sources) := by
  induction sources generalizing session other with
  | nil => exact alike
  | cons source sources ih =>
      rw [List.forall_mem_cons] at unmentioned
      exact ih (alike.run unmentioned.1).2 unmentioned.2

theorem alike_new (names : List String) : Session.new.Alike (.idle names) Session.new := by
  have empty : Store.empty.Alike (.idle names) Store.empty :=
    ⟨Nat.zero_le _, rfl, by simp [Store.empty]⟩
  have global : Scope.Alike (.idle names) {} {} := ⟨rfl, fun _ _ => .none⟩
  exact ⟨(Interlude.shift_idle names _).symm, (empty.push global).2⟩

theorem Reachable.run (reachable : session.Reachable) (source : String) :
    (session.run source).2.Reachable := by
  cases parsed : Program.parse source with
  | error report =>
      unfold Session.run
      rwa [parsed]
  | ok program =>
      rw [run_snd_of_parse parsed]
      exact reachable.program program

theorem Reachable.runAll (reachable : session.Reachable) (sources : List String) :
    (session.runAll sources).Reachable := by
  induction sources generalizing session with
  | nil => exact reachable
  | cons source sources ih => exact ih (reachable.run source)

/-- A program that is evaluated is an interlude for what comes after it. -/
theorem Reachable.alike_evalProgram (reachable : session.Reachable) {program : Program}
    (clean : session.Alike (.idle program.boundNames) session) :
    ∃ interlude : Interlude, interlude.names = program.boundNames ∧
      session.Alike interlude (session.evalProgram program).2 := by
  have intact := reachable.intact
  have after : (session.evalProgram program).2.store =
      (evalStmts (Closure.enter callLimit) session.globals .null program.statements
        session.store).2 := Eval.settle_snd _ _
  have bound : ∀ stmt ∈ program.statements, ∀ name ∈ stmt.boundName?,
      name ∈ program.boundNames := by
    intro stmt stmt_mem name isBound
    exact List.mem_filterMap.2 ⟨stmt, stmt_mem, isBound⟩
  have keeps : session.store.KeepsExcept program.boundNames
      (session.evalProgram program).2.store := by
    rw [after]
    exact keepsExcept_evalStmts callLimit session.globals bound session.store
  have grown : session.store.scopes.size ≤ (session.evalProgram program).2.store.scopes.size := by
    rw [after]
    exact (intact.kept_evalProgram program).grows
  refine ⟨_, rfl, ?_, intact.store.alike clean.store keeps grown⟩
  exact (Interlude.shift_of_lt intact.globals).symm

end Session

/-- The results of runs do not depend on a source that is run in between, provided that no other
source mentions a name that it binds at its top level. -/
theorem Session.results_insert (before after : List String) (extra : String)
    (unmentioned : ∀ program, Program.parse extra = .ok program →
      ∀ name ∈ program.boundNames, ∀ source ∈ before ++ after,
        ∀ token ∈ tokenize source, token.kind = .ident → token.literal ≠ name) :
    ((Session.new.results (before ++ extra :: after)).map shown).eraseIdx before.length =
      (Session.new.results (before ++ after)).map shown := by
  have same : (((Session.new.runAll before).run extra).2.results after).map shown =
      ((Session.new.runAll before).results after).map shown := by
    cases parsed : Program.parse extra with
    | error report =>
        unfold Session.run
        rw [parsed]
    | ok program =>
        have clean : ∀ source ∈ before ++ after,
            Unmentioned program.boundNames (tokenize source) := by
          intro source source_mem token token_mem isIdent bound
          exact unmentioned program parsed _ bound source source_mem token token_mem isIdent rfl
        rw [List.forall_mem_append] at clean
        have self := (alike_new program.boundNames).runAll clean.1
        rcases (Reachable.new.runAll before).alike_evalProgram self with ⟨interlude, names_eq, alike⟩
        rw [run_snd_of_parse parsed]
        rw [← names_eq] at clean
        exact alike.results clean.2
  rw [results_append, results_append, List.map_append, List.map_append]
  rw [List.eraseIdx_append_of_length_le (by simp [length_results])]
  simp [results, length_results, same]

/-- In between, a function of an earlier source is called and an evaluation fails halfway. -/
theorem Session.results_insert_failed :
    let before := ["let n = 2; let f = fn(x) \x7b n * x \x7d;"]
    let extra := "let g = f(1); let h = fn(x) \x7b x / 0 \x7d; h(g); let late = 1;"
    let after := ["f(4)", "fn(x) \x7b f(x) \x7d"]
    (∀ program, Program.parse extra = .ok program →
      ∀ name ∈ program.boundNames, ∀ source ∈ before ++ after,
        ∀ token ∈ tokenize source, token.kind = .ident → token.literal ≠ name) ∧
      (Session.new.results (before ++ extra :: after)).map shown =
        [.ok none, .error (.faulty .divisionByZero), .ok (some (.int, "8")),
          .ok (some (.function, "fn(x)\x7bf(x)\x7d"))] ∧
      ((Session.new.results (before ++ extra :: after)).map shown).eraseIdx before.length =
        (Session.new.results (before ++ after)).map shown := by
  intro before extra after
  have unmentioned : ∀ program, Program.parse extra = .ok program →
      ∀ name ∈ program.boundNames, ∀ source ∈ before ++ after,
        ∀ token ∈ tokenize source, token.kind = .ident → token.literal ≠ name := by
    intro program parsed
    have names : (Program.read extra).1.boundNames = ["g", "h", "late"] := by decide +kernel
    rw [Program.parse_eq_ok_iff] at parsed
    rw [parsed] at names
    rw [names]
    decide +kernel
  exact ⟨unmentioned, by decide +kernel, results_insert before after extra unmentioned⟩

end Scriptlet
