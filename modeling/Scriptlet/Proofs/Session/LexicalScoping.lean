import Scriptlet.Proofs.Eval.Scoping
import Scriptlet.Proofs.Session.Atomicity
import Scriptlet.Proofs.Session.Noninterference

/-!
# Scoping is lexical

A session that is watched runs sources as any session does. The list of its visits then tells for
every statement and every expression that was ever evaluated where it stands in its source and in
which scope it was evaluated. However evaluation got there, by calls inside calls, through functions
that were returned from functions or kept from earlier runs, the scope lies as deep as the source
says.
-/

namespace Scriptlet

/-- The programs of those sources that can be read. -/
def Program.parseAll (sources : List String) : List Program :=
  sources.filterMap fun source => (Program.parse source).toOption

theorem Program.mem_parseAll_iff {sources : List String} {program : Program} :
    program ∈ Program.parseAll sources ↔
      ∃ source ∈ sources, Program.parse source = .ok program := by
  have found : ∀ source, (Program.parse source).toOption = some program ↔
      Program.parse source = .ok program := by
    intro source
    cases Program.parse source <;> simp [Except.toOption]
  simp [Program.parseAll, found]

namespace Watch

/-- A watch on a session in which nothing has been run. -/
def new : Watch where
  store := Session.new.store

/-- The session that is watched. -/
def session (watch : Watch) : Session := ⟨Session.new.globals, watch.store⟩

/-- Runs a source in a session that is watched. -/
def run (watch : Watch) (source : String) : Except Failure (Option Value) × Watch :=
  match Program.parse source with
  | .error report => (.error (.unreadable report), watch)
  | .ok program =>
      match runStmts Watch.interpreter (Closure.run Watch.interpreter callLimit)
        (Session.new.globals, []) .null program.statements watch with
      | (.ok value, watch) => (Session.outcome (.ok value), watch)
      | (.error interrupt, watch) => (Session.interrupted interrupt, watch)

/-- The results of running sources one after the other. -/
def results (watch : Watch) : List String → List (Except Failure (Option Value))
  | [] => []
  | source :: sources => (watch.run source).1 :: (watch.run source).2.results sources

/-- The watch after running sources one after the other. -/
def runAll (watch : Watch) (sources : List String) : Watch :=
  sources.foldl (fun watch source => (watch.run source).2) watch

theorem run_session (watch : Watch) (source : String) :
    watch.session.run source = ((watch.run source).1, (watch.run source).2.session) := by
  cases parsed : Program.parse source with
  | error report => simp [Session.run, Watch.run, parsed]
  | ok program =>
      have tracks := Watch.tracks_runStmts callLimit (Session.new.globals, []) .null
        program.statements watch
      rcases done : runStmts Watch.interpreter (Closure.run Watch.interpreter callLimit)
        (Session.new.globals, []) .null program.statements watch with ⟨outcome, after⟩
      rw [done] at tracks
      rw [Session.run_of_parse parsed]
      simp only [Watch.run, parsed, done]
      rcases outcome with (value | fault) | value <;>
        simp [Session.evalProgram, Program.evalIn, Eval.settle, session, ← tracks,
          Session.interrupted]

theorem results_session (watch : Watch) (sources : List String) :
    watch.session.results sources = watch.results sources := by
  induction sources generalizing watch with
  | nil => rfl
  | cons source sources ih => simp [Session.results, Watch.results, run_session, ih]

/-- Nothing is out of place, and the global scope lies in no other. -/
structure Orderly (programs : List Program) (watch : Watch) : Prop where
  lexical : watch.Lexical programs
  globals : watch.store.Chain Session.new.globals 1

theorem orderly_new (programs : List Program) : Watch.new.Orderly programs := by
  have lexical : Watch.Lexical programs { store := .empty } :=
    ⟨rfl, by simp [Store.empty], by simp⟩
  exact ⟨lexical.push (by simp), .global rfl rfl⟩

variable {programs : List Program} {watch : Watch}

/-- A program leaves everything in place, and its faults are raised at nodes that it visits. -/
theorem Orderly.run (orderly : watch.Orderly programs) {source : String}
    (known : ∀ program, Program.parse source = .ok program → program ∈ programs) :
    (watch.run source).2.Orderly programs ∧
      ∀ fault, (watch.run source).1 = .error (.faulty fault) →
        (watch.run source).2.Raised fault := by
  cases parsed : Program.parse source with
  | error report => simp [Watch.run, parsed, orderly]
  | ok program =>
      have stand : ∀ stmt ∈ program.statements,
          (Watch.scoping programs).Stands watch (.stmt stmt) (Session.new.globals, []) :=
        fun stmt stmt_mem => ⟨⟨program, known program parsed, .top stmt_mem⟩, orderly.globals⟩
      have null : (Watch.scoping programs).Holds watch .null := trivial
      have kept := kept_runStmts (Watch.lawful_scoping programs) callLimit program.statements
        orderly.lexical stand null
      rcases done : runStmts Watch.interpreter (Closure.run Watch.interpreter callLimit)
        (Session.new.globals, []) .null program.statements watch with ⟨outcome, after⟩
      rw [done] at kept
      have orderlyAfter : after.Orderly programs :=
        ⟨kept.fits, orderly.globals.mono kept.grows.store⟩
      simp only [Watch.run, parsed, done]
      rcases outcome with (value | fault) | value
      · simp [Session.interrupted, Session.outcome, orderlyAfter]
      · have raised : after.Raised fault := by
          rcases kept.stopped rfl with ⟨_, ⟨⟩, _⟩ | ⟨_, ⟨⟩, raised⟩
          exact raised
        simpa [Session.interrupted, Session.outcome, orderlyAfter] using raised
      · simp [Session.outcome, orderlyAfter]

theorem Orderly.runAll (orderly : watch.Orderly programs) {sources : List String}
    (known : ∀ source ∈ sources, ∀ program, Program.parse source = .ok program →
      program ∈ programs) : (watch.runAll sources).Orderly programs := by
  induction sources generalizing watch with
  | nil => exact orderly
  | cons source sources ih =>
      rw [List.forall_mem_cons] at known
      exact ih (orderly.run known.1).1 known.2

theorem orderly_runAll {sources all : List String} (included : sources ⊆ all) :
    (Watch.new.runAll sources).Orderly (Program.parseAll all) :=
  (orderly_new _).runAll fun source source_mem _ parsed =>
    Program.mem_parseAll_iff.2 ⟨source, included source_mem, parsed⟩

end Watch

/-- Watching does not change the results of a session. Every statement and expression that is
evaluated stands in one of the sources, and there are as many scopes from its scope outward as its
place there says: the global one, and one for each block around it. -/
theorem Session.scoping_lexical (sources : List String) :
    Watch.new.results sources = Session.new.results sources ∧
      ∀ visit ∈ (Watch.new.runAll sources).visits, ∃ source ∈ sources, ∃ program,
        Program.parse source = .ok program ∧ program.Places visit.node visit.around ∧
          ∀ length, visit.store.Chain visit.scope length ↔
            length = 1 + visit.around.countP Node.isBlock := by
  refine ⟨(Watch.new.results_session sources).symm, ?_⟩
  intro visit visit_mem
  have orderly := Watch.orderly_runAll (List.Subset.refl sources)
  rcases orderly.lexical.visits visit visit_mem with ⟨⟨program, program_mem, places⟩, chain⟩
  rcases Program.mem_parseAll_iff.1 program_mem with ⟨source, source_mem, parsed⟩
  refine ⟨source, source_mem, program, parsed, places, ?_⟩
  intro length
  constructor
  · exact chain.unique
  · rintro rfl
    exact chain

/-- A branch in the body of a function that a function returned, kept from one run and called in a
block of the next. -/
theorem Session.scoping_lexical_kept :
    let sources := [
      "let make = fn(x) \x7b fn(y) \x7b if (y > x) \x7b y \x7d \x7d \x7d; let above = make(1)",
      "\x7b above(2) \x7d"]
    ∃ visit ∈ (Watch.new.runAll sources).visits, visit.around.countP Node.isBlock = 3 ∧
      ∀ length, visit.store.Chain visit.scope length ↔ length = 4 := by
  intro sources
  have last : (Watch.new.runAll sources).visits.head?.map (·.around.countP Node.isBlock) =
      some 3 := by decide +kernel
  rcases Option.map_eq_some_iff.1 last with ⟨visit, isLast, blocks⟩
  have visit_mem := List.mem_of_head? isLast
  rcases (scoping_lexical sources).2 visit visit_mem with ⟨_, _, _, _, _, chain⟩
  rw [blocks] at chain
  exact ⟨visit, visit_mem, blocks, chain⟩

end Scriptlet
