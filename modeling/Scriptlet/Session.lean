import Scriptlet.Eval.Tree
import Scriptlet.Parser.Tree

/-!
# Sessions

A session runs sources one after the other. What a source binds at its top level is there for the
sources after it. A source that cannot be read without a diagnostic is not evaluated at all; one
that fails while it is evaluated leaves what it had bound until then.
-/

namespace Scriptlet

/-- Why a run failed. -/
inductive Failure where
  /-- The source has errors, and none of it was evaluated. -/
  | unreadable (report : Report Diagnostic)
  /-- The evaluation stopped with a fault. -/
  | faulty (fault : Fault)
  deriving DecidableEq, Repr

/-- The message for a failure. -/
def Failure.message : Failure → String
  | unreadable report => report.joined
  | faulty fault => "ERROR: " ++ fault.message

/-- The program that a source spells, if all of it can be read. -/
def Program.parse (source : String) : Except (Report Diagnostic) Program :=
  let (program, report) := Program.read source
  if report.isEmpty then .ok program else .error report

/-- What sources leave behind for those that are run after them. -/
structure Session where
  /-- The scope of the names bound at the top level. -/
  globals : ScopeId
  store : Store
  deriving DecidableEq

namespace Session

/-- A session in which nothing has been run. -/
def new : Session :=
  let (globals, store) := Store.empty.openGlobal
  ⟨globals, store⟩

/-- Evaluates a program, whose top level lets bind in the session. -/
def evalProgram (session : Session) (program : Program) : Except Fault Value × Session :=
  let (result, store) := program.evalIn session.globals session.store
  (result, { session with store })

/-- Evaluates a single statement. -/
def evalStmt (session : Session) (stmt : Stmt) : Except Fault Value × Session :=
  let (result, store) := stmt.evalIn session.globals session.store
  (result, { session with store })

/-- Evaluates a single expression. -/
def evalExpr (session : Session) (expr : Expr) : Except Fault Value × Session :=
  let (result, store) := expr.evalIn session.globals session.store
  (result, { session with store })

/-- Runs a source. The null value counts as no value. -/
def run (session : Session) (source : String) : Except Failure (Option Value) × Session :=
  match Program.parse source with
  | .error report => (.error (.unreadable report), session)
  | .ok program =>
      match session.evalProgram program with
      | (.error fault, session) => (.error (.faulty fault), session)
      | (.ok value, session) => (.ok (if value.isNull then none else some value), session)

/-- A source that can be read leads to the session that evaluating its program leads to. -/
theorem run_snd_of_parse {session : Session} {source : String} {program : Program}
    (parsed : Program.parse source = .ok program) :
    (session.run source).2 = (session.evalProgram program).2 := by
  simp only [run, parsed]
  split <;> simp_all

end Session

/-- Runs a source by itself. -/
def interpret (source : String) : Except Failure (Option Value) :=
  (Session.new.run source).1

end Scriptlet
