import Scriptlet.Proofs.Eval.Frame
import Scriptlet.Proofs.Eval.Termination
import Scriptlet.Proofs.Session.Concatenation

/-!
# Statements are all or nothing

A run that does not get to its end stops in one of the statements at the top level. Of this
statement nothing is left among the global names, whatever it had done before it was interrupted:
blocks and calls inside it worked in scopes of their own, and the one binding that it could make
itself comes last, when there is nothing left that could go wrong. So the global names are those
that the statements in front of it have left.

A source with errors is not evaluated at all. And however a run ends, the counter of calls is back
at zero.
-/

namespace Scriptlet

section Statements

variable {enter : Enter} {scope : ScopeId} {store middle after : Store} {interrupt : Interrupt}

/-- A statement that is interrupted changes no scope that was there before it. -/
theorem Stmt.extends_of_interrupted {room : Nat} {stmt : Stmt}
    (stopped : stmt.eval (Closure.enter room) scope store = (.error interrupt, after)) :
    store.Extends after := by
  have extended := (stmt.changes_eval room scope store).2
  rw [stopped] at extended
  apply extended
  cases stmt with
  | letBind token name value =>
      rcases Eval.bind_cases stopped with ⟨other, failed, _⟩ | ⟨result, late, _, bound⟩
      · simp [Stmt.binding?, failed]
      · cases bound
  | ret | expr | block => rfl

/-- If statements are interrupted, one of them is, and those in front of it are not. -/
theorem exists_interrupted {last : Value} {stmts : List Stmt}
    (stopped : evalStmts enter scope last stmts store = (.error interrupt, after)) :
    ∃ before stmt others value middle, stmts = before ++ stmt :: others ∧
      evalStmts enter scope last before store = (.ok value, middle) ∧
      stmt.eval enter scope middle = (.error interrupt, after) := by
  induction stmts generalizing last store with
  | nil => cases stopped
  | cons stmt stmts ih =>
      rcases Eval.bind_cases stopped with ⟨other, first, same⟩ | ⟨value, middle, first, rest⟩
      · cases same
        exact ⟨[], stmt, stmts, last, store, rfl, rfl, first⟩
      · rcases ih rest with ⟨before, found, others, result, late, rfl, complete, failed⟩
        refine ⟨stmt :: before, found, others, result, late, rfl, ?_, failed⟩
        exact (Eval.bind_of_ok first).trans complete

/-- An interrupt of a statement that is reached is one of all the statements. -/
theorem evalStmts_of_interrupted {last value : Value} {before : List Stmt} {stmt : Stmt}
    (complete : evalStmts enter scope last before store = (.ok value, middle))
    (stopped : stmt.eval enter scope middle = (.error interrupt, after)) (others : List Stmt) :
    evalStmts enter scope last (before ++ stmt :: others) store = (.error interrupt, after) := by
  rw [evalStmts_append _ complete]
  exact Eval.bind_of_error stopped

end Statements

/-- The statements in front of the one at `index` are evaluated to their end, and this one is
interrupted. -/
def Program.StopsAt (program : Program) (session : Session) (index : Nat)
    (interrupt : Interrupt) : Prop :=
  ∃ stmt value middle after, program.statements[index]? = some stmt ∧
    evalStmts (Closure.enter callLimit) session.globals .null (program.statements.take index)
      session.store = (.ok value, middle) ∧
    stmt.eval (Closure.enter callLimit) session.globals middle = (.error interrupt, after)

theorem Program.completes_or_stops (program : Program) (session : Session) :
    program.CompletesIn session ∨ ∃ index interrupt, program.StopsAt session index interrupt := by
  rcases done : evalStmts (Closure.enter callLimit) session.globals .null program.statements
    session.store with ⟨outcome, after⟩
  cases outcome with
  | ok value => exact .inl ⟨value, after, done⟩
  | error interrupt =>
      rcases exists_interrupted done with
        ⟨before, stmt, others, value, middle, split, complete, stopped⟩
      refine .inr ⟨before.length, interrupt, stmt, value, middle, after, ?_, ?_, stopped⟩
      · simp [split]
      · simpa [split] using complete

namespace Session

/-- The scope of the names bound at the top level. -/
def globalScope? (session : Session) : Option Scope := session.store.scopes[session.globals]?

/-- What a run returns for the outcome of an evaluation. -/
def outcome : Except Fault Value → Except Failure (Option Value)
  | .ok value => .ok (if value.isNull then none else some value)
  | .error fault => .error (.faulty fault)

/-- What a run returns if it is interrupted. A `return` that reaches the top level ends it with its
value. -/
def interrupted : Interrupt → Except Failure (Option Value)
  | .returned value => outcome (.ok value)
  | .failed fault => outcome (.error fault)

theorem run_of_parse {session : Session} {source : String} {program : Program}
    (parsed : Program.parse source = .ok program) :
    session.run source =
      (outcome (session.evalProgram program).1, (session.evalProgram program).2) := by
  simp only [run, parsed]
  rcases session.evalProgram program with ⟨fault | value, after⟩ <;> rfl

variable {session : Session}

theorem evalProgram_of_interrupted {program : Program} {interrupt : Interrupt} {after : Store}
    (stopped : evalStmts (Closure.enter callLimit) session.globals .null program.statements
      session.store = (.error interrupt, after)) :
    outcome (session.evalProgram program).1 = interrupted interrupt ∧
      (session.evalProgram program).2.store = after := by
  cases interrupt <;> simp [evalProgram, Program.evalIn, Eval.settle, stopped, interrupted]

/-- A program that stops in a statement leaves every scope as the statements in front of it left it. -/
theorem evalProgram_of_stopsAt {program : Program} {index : Nat} {interrupt : Interrupt}
    (stops : program.StopsAt session index interrupt) :
    outcome (session.evalProgram program).1 = interrupted interrupt ∧
      (session.evalProgram ⟨program.statements.take index⟩).2.store.Extends
        (session.evalProgram program).2.store := by
  rcases stops with ⟨stmt, value, middle, after, isStmt, complete, stopped⟩
  have split : program.statements =
      program.statements.take index ++ stmt :: program.statements.drop (index + 1) := by
    rcases List.getElem?_eq_some_iff.1 isStmt with ⟨inside, rfl⟩
    simp
  have whole := evalStmts_of_interrupted complete stopped (program.statements.drop (index + 1))
  rw [← split] at whole
  rcases evalProgram_of_interrupted whole with ⟨result, store_eq⟩
  have reached : (session.evalProgram ⟨program.statements.take index⟩).2.store = middle := by
    simp [evalProgram, Program.evalIn, Eval.settle, complete]
  refine ⟨result, ?_⟩
  rw [store_eq, reached]
  exact Stmt.extends_of_interrupted stopped

end Session

/-- A run by the rules, on a machine that counts the calls that are being evaluated. -/
inductive Rules.Runs (globals : ScopeId) (source : String) (before : Machine) :
    Except Failure (Option Value) → Machine → Prop
  | unreadable {report : Report Diagnostic} (parsed : Program.parse source = .error report) :
      Runs globals source before (.error (.unreadable report)) before
  | evaluated {program : Program} {result : Except Fault Value} {after : Machine}
      (parsed : Program.parse source = .ok program)
      (ends : Ends (Statements globals .null program.statements) before (result, after)) :
      Runs globals source before (Session.outcome result) after

namespace Session

variable {session : Session}

/-- By the rules a run ends in exactly one way, with the counter as it was. -/
theorem Reachable.runs_iff (reachable : session.Reachable) {source : String}
    {result : Except Failure (Option Value)} {machine : Machine} :
    Rules.Runs session.globals source ⟨session.store, 0⟩ result machine ↔
      result = (session.run source).1 ∧ machine = ⟨(session.run source).2.store, 0⟩ := by
  cases parsed : Program.parse source with
  | error report =>
      have run_eq : session.run source = (.error (.unreadable report), session) := by
        simp [run, parsed]
      rw [run_eq]
      constructor
      · intro runs
        cases runs with
        | unreadable other =>
            cases parsed.symm.trans other
            exact ⟨rfl, rfl⟩
        | evaluated other => cases parsed.symm.trans other
      · rintro ⟨rfl, rfl⟩
        exact .unreadable parsed
  | ok program =>
      rcases reachable.intact with ⟨intact, isOpen⟩
      have agrees : ∀ outcome after,
          Rules.Statements session.globals .null program.statements ⟨session.store, 0⟩ outcome after ↔
            Computes (evalStmts · session.globals .null program.statements) ⟨session.store, 0⟩
              outcome after :=
        fun _ _ => Rules.statements_iff intact isOpen
      rcases Rules.ends_iff agrees with ⟨value, after, computed, only⟩
      have evaluated : session.evalProgram program = (value, ⟨session.globals, after⟩) := by
        have same : program.evalIn session.globals session.store = (value, after) := computed
        simp [evalProgram, same]
      rw [run_of_parse parsed, evaluated]
      constructor
      · intro runs
        cases runs with
        | unreadable other => cases parsed.symm.trans other
        | evaluated other ends =>
            cases parsed.symm.trans other
            cases (only _).1 ends
            exact ⟨rfl, rfl⟩
      · rintro ⟨rfl, rfl⟩
        exact .evaluated parsed ((only _).2 rfl)

/-- A run is atomic in its statements. If the source has errors, all of them are returned and the
session is unchanged. If the evaluation stops in a statement, by a fault or by a `return` that comes
out of it, then the global names are what evaluating the statements in front of it makes of them,
and so are all the scopes that these names can reach. In every case the run ends by the rules, and
the counter of calls is at zero again. -/
theorem Reachable.run_atomic (reachable : session.Reachable) (source : String) :
    ((Program.read source).2 ≠ .empty →
      session.run source = (.error (.unreadable (Program.read source).2), session)) ∧
    (∀ program, Program.parse source = .ok program →
      (program.CompletesIn session ∨
        ∃ index interrupt, program.StopsAt session index interrupt) ∧
      ∀ index interrupt, program.StopsAt session index interrupt →
        (session.run source).1 = interrupted interrupt ∧
        (session.run source).2.globalScope? =
          (session.evalProgram ⟨program.statements.take index⟩).2.globalScope? ∧
        (session.evalProgram ⟨program.statements.take index⟩).2.store.Extends
          (session.run source).2.store) ∧
    ∀ result machine, Rules.Runs session.globals source ⟨session.store, 0⟩ result machine ↔
      result = (session.run source).1 ∧ machine = ⟨(session.run source).2.store, 0⟩ := by
  refine ⟨?_, ?_, fun _ _ => reachable.runs_iff⟩
  · intro complaints
    have unreadable : Program.parse source = .error (Program.read source).2 := by
      simp [Program.parse, Report.isEmpty_iff, complaints]
    simp [run, unreadable]
  · intro program parsed
    refine ⟨program.completes_or_stops session, ?_⟩
    intro index interrupt stops
    rcases evalProgram_of_stopsAt stops with ⟨result, extended⟩
    have isOpen := (reachable.program ⟨program.statements.take index⟩).intact.globals
    rw [run_of_parse parsed]
    refine ⟨result, ?_, extended⟩
    have found := Array.getElem?_eq_getElem isOpen
    exact (extended _ trivial _ found).trans found.symm

/-- A `return` comes out of a block inside an argument inside the value of the second `let`, after
a name was bound in the block. Only the first `let` has bound its name. -/
theorem run_atomic_returned :
    let session := (Session.new.run "let f = fn(x) \x7b x + 1 \x7d").2
    let source := "let a = f(1); let b = f(if (a) \x7b let f = a; return f \x7d)"
    let program := (Program.read source).1
    session.Reachable ∧ Program.parse source = .ok program ∧
      program.StopsAt session 1 (.returned (.int 2)) ∧
      (session.run source).1 = .ok (some (.int 2)) ∧
      (session.run source).2.globalScope? =
        (session.evalProgram ⟨program.statements.take 1⟩).2.globalScope? ∧
      (session.run source).2.globalScope?.map (·.bindings.map Prod.fst) = some ["a", "f"] := by
  intro session source program
  have reachable : session.Reachable := by
    have parsed := Program.parse_of_isEmpty
      (show (Program.read "let f = fn(x) \x7b x + 1 \x7d").2.isEmpty = true by decide +kernel)
    have same : session = _ := run_snd_of_parse parsed
    rw [same]
    exact .program .new _
  have parsed : Program.parse source = .ok program := Program.parse_of_isEmpty (by decide +kernel)
  have stops : program.StopsAt session 1 (.returned (.int 2)) := by
    refine ⟨program.statements.get ⟨1, by decide +kernel⟩, .null, _, _,
      List.getElem?_eq_getElem _, Prod.ext ?_ rfl, Prod.ext ?_ rfl⟩
    · decide +kernel
    · decide +kernel
  rcases ((reachable.run_atomic source).2.1 program parsed).2 1 _ stops with ⟨result, kept, _⟩
  refine ⟨reachable, parsed, stops, result, kept, ?_⟩
  rw [kept]
  decide +kernel

end Session

end Scriptlet
