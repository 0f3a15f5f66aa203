import Mathlib.Control.Monad.Basic
import Scriptlet.Proofs.Parser.Concatenation
import Scriptlet.Session

/-!
# A source in pieces

A session that runs one source and then another has the same result for the second one as if both
were a single source. Reading is cut at the seam as `Program.read_append` says. Evaluation is a fold
over statements, so it can be cut anywhere, as long as nothing interrupts it before the cut.
-/

namespace Scriptlet

section Statements

variable {enter : Enter} {scope : ScopeId} {last value : Value} {store after : Store}

theorem evalStmts_append {stmts : List Stmt} (others : List Stmt)
    (done : evalStmts enter scope last stmts store = (.ok value, after)) :
    evalStmts enter scope last (stmts ++ others) store = evalStmts enter scope value others after := by
  induction stmts generalizing last store with
  | nil =>
      cases done
      rfl
  | cons stmt stmts ih =>
      rcases Eval.bind_cases done with ⟨interrupt, _, impossible⟩ | ⟨first, middle, head, tail⟩
      · cases impossible
      · have opened : evalStmts enter scope last (stmt :: stmts ++ others) store =
            evalStmts enter scope first (stmts ++ others) middle := Eval.bind_of_ok head
        rw [opened, ih tail]

/-- The value of statements does not depend on what came before them, unless there are none. -/
theorem evalStmts_of_ne_nil {stmts : List Stmt} (nonempty : stmts ≠ []) (other : Value) :
    evalStmts enter scope last stmts = evalStmts enter scope other stmts := by
  cases stmts with
  | nil => exact absurd rfl nonempty
  | cons stmt stmts => rfl

theorem evalStmts_singleton (enter : Enter) (scope : ScopeId) (last : Value) (stmt : Stmt) :
    evalStmts enter scope last [stmt] = stmt.eval enter scope := by
  funext store
  rcases done : stmt.eval enter scope store with ⟨interrupt | value, after⟩
  · exact Eval.bind_of_error done
  · exact Eval.bind_of_ok done

end Statements

/-- The program is evaluated to its end: it is interrupted neither by a fault nor by a `return`. -/
def Program.CompletesIn (program : Program) (session : Session) : Prop :=
  ∃ value store, evalStmts (Closure.enter callLimit) session.globals .null program.statements
    session.store = (.ok value, store)

namespace Session

variable {session : Session} {first second : String} {program : Program}

theorem evalProgram_append {other : Program} (nonempty : other.statements ≠ [])
    (completes : program.CompletesIn session) :
    session.evalProgram ⟨program.statements ++ other.statements⟩ =
      (session.evalProgram program).2.evalProgram other := by
  rcases completes with ⟨value, store, done⟩
  have first : program.evalIn session.globals session.store = (.ok value, store) := by
    simp [Program.evalIn, Eval.settle, done]
  have joined : evalStmts (Closure.enter callLimit) session.globals .null
      (program.statements ++ other.statements) session.store =
        evalStmts (Closure.enter callLimit) session.globals .null other.statements store := by
    rw [evalStmts_append other.statements done, evalStmts_of_ne_nil nonempty]
  simp only [evalProgram, first]
  simp only [Program.evalIn, Eval.settle, joined]

theorem run_append (parsed : Program.parse first = .ok program)
    (ends : Grammar.EndsInSemicolon (tokenize first)) (balanced : braceExcess (tokenize first) = 0)
    (nonempty : Program.parse second ≠ .ok ⟨[]⟩) (completes : program.CompletesIn session) :
    (session.run (first ++ second)).1 = ((session.run first).2.run second).1 := by
  rcases readSecond : Program.read second with ⟨other, report⟩
  have readBoth : Program.read (first ++ second) =
      (⟨program.statements ++ other.statements⟩, report) := by
    rw [Program.read_append (Program.parse_eq_ok_iff.1 parsed) ends balanced, readSecond]
  by_cases complaints : report.isEmpty = true
  · have parsedSecond : Program.parse second = .ok other := by
      simp [Program.parse, readSecond, complaints]
    have parsedBoth :
        Program.parse (first ++ second) = .ok ⟨program.statements ++ other.statements⟩ := by
      simp [Program.parse, readBoth, complaints]
    have statements_ne : other.statements ≠ [] := by
      intro empty
      apply nonempty
      rw [parsedSecond, ← empty]
    rw [run_snd_of_parse parsed, run, run, parsedBoth, parsedSecond]
    simp only [evalProgram_append statements_ne completes]
  · have parsedSecond : Program.parse second = .error report := by
      simp [Program.parse, readSecond, complaints]
    have parsedBoth : Program.parse (first ++ second) = .error report := by
      simp [Program.parse, readBoth, complaints]
    rw [run, run, parsedBoth, parsedSecond]

end Session

/-- Running two sources in one session gives for the second one what running both as a single
source gives. The first one has to be over, and it has to be evaluated to its end. -/
theorem interpret_append {first second : String} {program : Program}
    (parsed : Program.parse first = .ok program)
    (ends : Grammar.EndsInSemicolon (tokenize first))
    (balanced : (tokenize first).countP (·.kind = .lbrace) =
      (tokenize first).countP (·.kind = .rbrace))
    (nonempty : Program.parse second ≠ .ok ⟨[]⟩) (completes : program.CompletesIn Session.new) :
    interpret (first ++ second) = ((Session.new.run first).2.run second).1 := by
  have excess : braceExcess (tokenize first) = 0 := by
    rw [braceExcess, balanced]
    omega
  exact Session.run_append parsed ends excess nonempty completes

/-- A recursive function that is called on both sides of the seam, in front of a minus sign. -/
theorem interpret_append_called :
    let first := "let f = fn(n) \x7b if (n < 1) \x7b return 0; \x7d n + f(n - 1) \x7d; let a = f(3);"
    let second := "-f(a)"
    ∃ program, Program.parse first = .ok program ∧ Grammar.EndsInSemicolon (tokenize first) ∧
      (tokenize first).countP (·.kind = .lbrace) = (tokenize first).countP (·.kind = .rbrace) ∧
      Program.parse second ≠ .ok ⟨[]⟩ ∧ program.CompletesIn Session.new ∧
      ((Session.new.run first).2.run second).1 = .ok (some (.int (-21))) ∧
      interpret (first ++ second) = ((Session.new.run first).2.run second).1 := by
  intro first second
  have parsed : Program.parse first = .ok (Program.read first).1 :=
    Program.parse_of_isEmpty (by decide +kernel)
  have ends : Grammar.EndsInSemicolon (tokenize first) :=
    ⟨.mark .semicolon, by decide, by decide +kernel⟩
  have balanced : (tokenize first).countP (·.kind = .lbrace) =
      (tokenize first).countP (·.kind = .rbrace) := by decide +kernel
  have nonempty : Program.parse second ≠ .ok ⟨[]⟩ := by decide +kernel
  have completes : (Program.read first).1.CompletesIn Session.new := by
    have done : (evalStmts (Closure.enter callLimit) Session.new.globals .null
        (Program.read first).1.statements Session.new.store).1 = .ok .null := by decide +kernel
    exact ⟨.null, _, Prod.ext done rfl⟩
  have value : ((Session.new.run first).2.run second).1 = .ok (some (.int (-21))) := by
    decide +kernel
  exact ⟨_, parsed, ends, balanced, nonempty, completes, value,
    interpret_append parsed ends balanced nonempty completes⟩

end Scriptlet
