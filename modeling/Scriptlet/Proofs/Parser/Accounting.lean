import Scriptlet.Proofs.Parser.Course
import Scriptlet.Proofs.Parser.Termination

/-!
# Reports are paid for with tokens

Errors go to a report on the side, some of them from parsers that go on and have a result. This file
counts them. No call reports more than there are tokens from where it starts to where it ends, and
nothing is left out without a report.

A cursor has what was reported so far and one more for each token that it could still charge. A
diagnostic takes one from the tokens that were read for it. The token under the cursor is the
difficult one, because a parser that gives up stays on the token it complains about. So a parser is
measured by the tokens behind the cursor, and may report once for the token it begins with. What
lies inside something begins behind a token of its own, which pays for this one report.
-/

namespace Scriptlet

namespace Cursor

variable {cursor : Cursor}

/-- What was reported, and one for each token from the cursor on. -/
def charge (cursor : Cursor) : Nat :=
  cursor.report.toList.length + cursor.tokens.length

/-- What was reported, and one for each token behind the cursor. -/
def balance (cursor : Cursor) : Nat :=
  cursor.advance.charge

theorem balance_eq (cursor : Cursor) :
    cursor.balance = cursor.report.toList.length + (cursor.tokens.length - 1) :=
  congrArg (cursor.report.toList.length + ·) List.length_tail

theorem charge_le (cursor : Cursor) : cursor.charge ≤ cursor.balance + 1 := by
  rw [balance_eq, charge]
  omega

theorem balance_lt_charge (notEnd : cursor.current.kind ≠ .eof) :
    cursor.balance < cursor.charge := by
  have nonempty := List.length_pos_iff.2 (tokens_ne_nil_of_current notEnd)
  rw [balance_eq, charge]
  omega

theorem balance_advance_lt (notEnd : cursor.peek.kind ≠ .eof) :
    cursor.advance.balance < cursor.balance :=
  balance_lt_charge notEnd

theorem balance_addDiagnostic (cursor : Cursor) (diagnostic : Diagnostic) :
    (cursor.addDiagnostic diagnostic).balance = cursor.balance + 1 := by
  simp only [balance_eq, addDiagnostic, Report.toList_add, List.length_append,
    List.length_singleton]
  omega

mutual

theorem PassesTo.balance_le {start done : Cursor} :
    start.PassesTo done → done.balance ≤ start.balance
  | .moves onward => by
      have shorter := onward.length_le
      simp only [balance_eq]
      omega
  | .trans first second => Nat.le_trans second.balance_le first.balance_le
  | .recovers notEnd gaveUp => Nat.le_trans gaveUp.balance_le (balance_advance_lt notEnd)

theorem GivesUpAt.balance_le {start done : Cursor} :
    start.GivesUpAt done → done.balance ≤ start.balance + 1
  | .reports diagnostic => Nat.le_of_eq (balance_addDiagnostic start diagnostic)
  | .behind passed gaveUp =>
      Nat.le_trans gaveUp.balance_le (Nat.succ_le_succ passed.balance_le)
  | .followed gaveUp passed => Nat.le_trans passed.balance_le gaveUp.balance_le
  | .onward passed notEnd gaveUp =>
      -- the token that is gone on with pays
      Nat.le_trans (Nat.le_trans gaveUp.balance_le (balance_advance_lt notEnd))
        (Nat.le_trans passed.balance_le (charge_le _))

end

end Cursor

theorem Parser.Ends.balance_le {Result : Type} {parser : OptionT Parser Result} {start : Cursor}
    (ends : Parser.Ends parser start (fun _ done => start.stepBack.PassesTo done)
      start.GivesUpAt) :
    (parser.run.run start).2.balance ≤ start.balance + 1 := by
  cases result : (parser.run.run start).1 with
  | none => exact (ends.gaveUp result).balance_le
  | some read => exact Nat.le_trans (ends.read read result).balance_le start.charge_le

/-- Whatever is asked for, at most one report is not paid for with a token behind the first. -/
theorem Call.balance_parser (call : Call) (start : Cursor) :
    (call.parser.run start).2.balance ≤ start.balance + 1 := by
  cases call with
  | program =>
      have passed := (Level.course_statements nestingLimit start .eof).2
      exact Nat.le_trans passed.balance_le start.charge_le
  | statement => exact ((Level.ends_statement nestingLimit start).balance_le :)
  | block =>
      have passed := (Level.course_statements nestingLimit start.advance .rbrace).2
      exact Nat.le_succ_of_le passed.balance_le
  | expression precedence =>
      exact ((Level.ends_expression nestingLimit start precedence).balance_le :)

/-- No call gives up in silence. -/
theorem Call.length_report_lt (call : Call) (start : Cursor)
    (gaveUp : (call.parser.run start).1 = .statement none ∨
      (call.parser.run start).1 = .expression none) :
    start.report.toList.length < (call.parser.run start).2.report.toList.length := by
  have accountable := Parser.accountable_inside nestingLimit
  cases call with
  | program | block => rcases gaveUp with gaveUp | gaveUp <;> cases gaveUp
  | statement =>
      rcases gaveUp with gaveUp | gaveUp
      · exact accountable.2 start (Answer.statement.inj gaveUp)
      · cases gaveUp
  | expression precedence =>
      rcases gaveUp with gaveUp | gaveUp
      · cases gaveUp
      · exact accountable.1 precedence start (Answer.expression.inj gaveUp)

/-! ## Statements that are left out -/

namespace Parser

variable {Item : Type} {close : Kind} {statement : OptionT Parser Item}

/-- The cursors on which statements begin, whether these can be read or not. -/
def attempts (close : Kind) (statement : OptionT Parser Item) (start : Cursor) : List Cursor :=
  if atEnd : start.current.kind = close ∨ start.current.kind = .eof then
    []
  else
    have := length_advance_run_lt statement.run (not_or.1 atEnd).2
    start :: attempts close statement (statement.run.run start).2.advance
termination_by start.tokens.length

theorem attempts_of_closed {start : Cursor}
    (closed : start.current.kind = close ∨ start.current.kind = .eof) :
    attempts close statement start = [] := by
  rw [attempts, dif_pos closed]

theorem attempts_of_not_closed {start : Cursor}
    (notClosed : ¬(start.current.kind = close ∨ start.current.kind = .eof)) :
    attempts close statement start =
      start :: attempts close statement (statement.run.run start).2.advance := by
  rw [attempts, dif_neg notClosed]

theorem toList_statementsUntil (read : Array Item) (start : Cursor) :
    ((statementsUntil close statement read).run start).1.toList =
      read.toList ++
        (attempts close statement start).filterMap fun cursor => (statement.run.run cursor).1 := by
  induction read, start using statementsUntil_induction close statement with
  | closed read start atEnd =>
      rw [run_statementsUntil_of_closed atEnd, attempts_of_closed atEnd]
      simp
  | onward read start notEnd ih =>
      rw [run_statementsUntil_of_not_closed notEnd, attempts_of_not_closed notEnd, ih]
      cases result : (statement.run.run start).1 with
      | none => simp [result]
      | some item => simp [result]

/-- What was reported at a statement is reported in the end. -/
theorem leadsTo_of_mem_attempts {cursor : Cursor} (read : Array Item) (start : Cursor)
    (cursor_mem : cursor ∈ attempts close statement start) :
    start.LeadsTo cursor ∧ (statement.run.run cursor).2.LeadsTo
      ((statementsUntil close statement read).run start).2 := by
  induction read, start using statementsUntil_induction close statement with
  | closed read start atEnd =>
      rw [attempts_of_closed atEnd] at cursor_mem
      cases cursor_mem
  | onward read start notEnd ih =>
      have moved := leadsTo_run statement.run start
      have onward := (statement.run.run start).2.leadsTo_advance
      rw [attempts_of_not_closed notEnd] at cursor_mem
      rw [run_statementsUntil_of_not_closed notEnd]
      rcases List.mem_cons.1 cursor_mem with rfl | later
      · exact ⟨.refl _, onward.trans (leadsTo_run _ _)⟩
      · exact ⟨(moved.trans onward).trans (ih later).1, (ih later).2⟩

/-- Of the statements that were begun, those that could be read are kept in order, the others were
reported while they were read, and if nothing was reported there are no others. -/
structure Accounts (close : Kind) (statement : OptionT Parser Item) (start : Cursor) : Prop where
  kept : ((statementsUntil close statement #[]).run start).1.toList =
    (attempts close statement start).filterMap fun cursor => (statement.run.run cursor).1
  reported : ∀ cursor ∈ attempts close statement start, (statement.run.run cursor).1 = none →
    cursor.report.toList.length < (statement.run.run cursor).2.report.toList.length
  complete : ((statementsUntil close statement #[]).run start).2.report = start.report →
    ∀ cursor ∈ attempts close statement start, (statement.run.run cursor).1.isSome

theorem accounts_of_accountable (accountable : Accountable statement) (start : Cursor) :
    Accounts close statement start := by
  have reported : ∀ cursor ∈ attempts close statement start, (statement.run.run cursor).1 = none →
      cursor.report.toList.length < (statement.run.run cursor).2.report.toList.length :=
    fun cursor _ => accountable cursor
  refine ⟨?_, reported, ?_⟩
  · rw [toList_statementsUntil]
    simp
  · intro silent cursor cursor_mem
    rw [Option.isSome_iff_ne_none]
    intro gaveUp
    rcases leadsTo_of_mem_attempts #[] start cursor_mem with ⟨before, after⟩
    have begun := before.report.length_le
    have grown := reported cursor cursor_mem gaveUp
    have ended := after.report.length_le
    rw [silent] at ended
    omega

end Parser

/-! ## Calls from outside -/

theorem Call.ends_window {source : String} {cursor : Cursor} (call : Call)
    (inSource : cursor.tokens <:+ tokenize source) :
    call.Ends (cursor.window source 0) (call.parser.run cursor).1
      ((call.parser.run cursor).2.window source 0) := by
  refine ⟨cursor.tokens.length + 2 * nestingLimit + 3, ?_⟩
  intro rounds enough
  have mirrors : (call.perform rounds).Mirrors (call.within (Level.inside nestingLimit)) source 0
      cursor.tokens.length := call.mirrors_perform (Nat.zero_add _) (by omega)
  rw [← call.within_inside]
  exact mirrors.ends inSource (Nat.le_refl _)

namespace Window

variable {source : String} {window : Window}

/-- A call keeps what was reported before it. If it gives up it reports something. It reports at
most one error for each token from the one it starts on to the one it ends on, and at most one if it
starts behind the last token. Wherever statements are read one after the other, none is left out
without a report. So a program has at most as many errors as tokens. -/
theorem Reached.reports_paid (reached : window.Reached source) :
    (∀ call : Call, ∃ answer after, call.Ends window answer after ∧
      window.report.toList <+: after.report.toList ∧
      (answer = .statement none ∨ answer = .expression none →
        window.report.toList.length < after.report.toList.length) ∧
      ∃ passed, window.unread = passed ++ after.unread.tail ∧
        after.report.toList.length ≤ window.report.toList.length + passed.length +
          (if window.current.kind = .eof then 1 else 0)) ∧
    (∀ room close start, Parser.Accounts close (Level.inside room).statement start) ∧
    (Program.read source).2.toList.length ≤ (tokenize source).length := by
  refine ⟨?_, ?_, ?_⟩
  · intro call
    rcases reached.exists_cursor with ⟨cursor, inSource, rfl⟩
    have moved := Parser.leadsTo_run call.parser cursor
    have unread_eq : ((call.parser.run cursor).2.window source 0).unread =
        (call.parser.run cursor).2.tokens := unread_window (moved.tokens.trans inSource)
    refine ⟨_, _, call.ends_window inSource, moved.report, call.length_report_lt cursor, ?_⟩
    rw [unread_window inSource, unread_eq]
    rcases (List.tail_suffix _).trans moved.tokens with ⟨passed, passed_eq⟩
    refine ⟨passed, passed_eq.symm, ?_⟩
    have bound := call.balance_parser cursor
    have length_eq := congrArg List.length passed_eq
    rw [List.length_append, List.length_tail] at length_eq
    rw [Cursor.balance_eq, Cursor.balance_eq] at bound
    change (call.parser.run cursor).2.report.toList.length ≤
      cursor.report.toList.length + passed.length + if cursor.current.kind = .eof then 1 else 0
    split
    · omega
    · next notEnd =>
        have nonempty := List.length_pos_iff.2 (Cursor.tokens_ne_nil_of_current notEnd)
        omega
  · intro room close start
    exact Parser.accounts_of_accountable (Parser.accountable_inside room).2 start
  · have passed := (Level.course_statements nestingLimit (.ofSource source) .eof).2
    have started : (Cursor.ofSource source).charge = (tokenize source).length := Nat.zero_add _
    rw [← started]
    exact Nat.le_trans (Nat.le_add_right _ _) passed.balance_le

/-- Both parentheses are reported, and they pay for it. The window is behind the end then, where an
expression can be reported although no token pays for it. -/
theorem reports_paid_behind_end :
    let source := ") )"
    let behind := (Call.program.parser.run (.ofSource source)).2.window source 0
    behind.Reached source ∧ behind.current.kind = .eof ∧ behind.report.toList.length = 2 ∧
    (∃ answer after, (Call.expression .lowest).Ends behind answer after ∧
      behind.report.toList <+: after.report.toList ∧ after.report.toList.length ≤ 3) ∧
    (tokenize source).length = 2 ∧
    (Program.read source).2.toList.length ≤ (tokenize source).length := by
  intro source behind
  have reached : behind.Reached source := by
    apply Window.Reached.call .start
    rw [start_eq_window]
    exact Call.program.ends_window (List.suffix_refl _)
  have twice : behind.report.toList.length = 2 := by decide +kernel
  rcases reached.reports_paid with ⟨calls, _, program⟩
  rcases calls (.expression .lowest) with ⟨answer, after, ends, kept, _, passed, passed_eq, bound⟩
  have unread_eq : behind.unread = [] := by decide +kernel
  have atEnd : behind.current.kind = .eof := by decide +kernel
  have passed_nil : passed = [] := by
    rw [unread_eq] at passed_eq
    exact (List.append_eq_nil_iff.1 passed_eq.symm).1
  rw [twice, passed_nil, if_pos atEnd] at bound
  exact ⟨reached, atEnd, twice, ⟨answer, after, ends, kept, bound⟩, by decide +kernel, program⟩

end Window

end Scriptlet
