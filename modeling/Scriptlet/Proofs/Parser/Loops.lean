import Scriptlet.Parser.Tree

/-!
# Rounds of the loops

What a required token and one round of a loop do to the cursor, whatever is reported. Every round
leaves fewer tokens, and statements are read until a closing token or the end mark is under the
cursor.
-/

namespace Scriptlet

namespace Parser

variable {Result Item : Type} {start : Cursor}

theorem leadsTo_run (parser : Parser Result) (start : Cursor) :
    start.LeadsTo (parser.run start).2 :=
  (parser start).2

theorem run_expect (wanted : Kind) (start : Cursor) :
    (expect wanted).run.run start =
      if start.peek.kind = wanted then (some (), start.advance)
      else (none, start.addDiagnostic (.expected wanted start.peek.kind)) := by
  have opened : (expect wanted).run.run start =
      (if start.peek.kind = wanted then liftM advance
        else liftM (report (.expected wanted start.peek.kind)) >>= fun _ => failure :
          OptionT Parser Unit).run.run start := rfl
  rw [opened]
  split <;> rfl

theorem run_expectInStatement (wanted : Kind) (start : Cursor) :
    (expectInStatement wanted).run.run start =
      if start.peek.kind = wanted then (some (), start.advance)
      else (none, (skipStatement.run
        (start.addDiagnostic (.expected wanted start.peek.kind))).2) := by
  rw [expectInStatement, OptionT.run_orElse, Option.elimM, run_bind, run_expect]
  split <;> rfl

section Follow

variable {Admitted : Type} {follow : Kind → Option Admitted} {admitted : Admitted}

/-- A loop goes on only if there is a token to go on with. -/
theorem peek_ne_eof_of_follow (follow_eof : follow .eof = none)
    (goes : follow start.peek.kind = some admitted) : start.peek.kind ≠ .eof := by
  intro isEnd
  rw [isEnd, follow_eof] at goes
  cases goes

theorem length_advance_lt_of_follow (follow_eof : follow .eof = none)
    (goes : follow start.peek.kind = some admitted) :
    start.advance.tokens.length < start.tokens.length :=
  Cursor.length_advance_lt (peek_ne_eof_of_follow follow_eof goes)

/-- A loop that goes on takes a step from the next token and then starts over. -/
theorem run_whileNext_eq_bind {follow_eof : follow .eof = none}
    {step : Admitted → Result → OptionT Parser Result} {sofar : Result}
    (goes : follow start.peek.kind = some admitted) :
    (whileNext follow follow_eof step sofar).run.run start =
      (step admitted sofar >>= whileNext follow follow_eof step).run.run start.advance := by
  rw [run_whileNext_of_some goes, run_run_bind]
  rcases (step admitted sofar).run.run start.advance with ⟨_ | read, middle⟩ <;> rfl

end Follow

section Statements

variable {close : Kind} {statement : OptionT Parser Item}

theorem length_advance_run_lt (parser : Parser Result) (notEnd : start.current.kind ≠ .eof) :
    (parser.run start).2.advance.tokens.length < start.tokens.length := by
  have nonempty := List.length_pos_iff.2 (Cursor.tokens_ne_nil_of_current notEnd)
  have moved := (leadsTo_run parser start).tokens.length_le
  simp only [Cursor.advance, List.length_tail]
  omega

/-- Induction along the statements that are read one after the other. -/
theorem statementsUntil_induction (close : Kind) (statement : OptionT Parser Item)
    {motive : Array Item → Cursor → Prop}
    (closed : ∀ read start, start.current.kind = close ∨ start.current.kind = .eof →
      motive read start)
    (onward : ∀ read start, ¬(start.current.kind = close ∨ start.current.kind = .eof) →
      motive ((statement.run.run start).1.elim read read.push)
        (statement.run.run start).2.advance → motive read start)
    (read : Array Item) (start : Cursor) : motive read start := by
  by_cases atEnd : start.current.kind = close ∨ start.current.kind = .eof
  · exact closed read start atEnd
  · have shorter := length_advance_run_lt statement.run (not_or.1 atEnd).2
    apply onward read start atEnd
    exact statementsUntil_induction close statement closed onward _ _
termination_by start.tokens.length

theorem current_statementsUntil (read : Array Item) (start : Cursor) :
    ((statementsUntil close statement read).run start).2.current.kind = close ∨
      ((statementsUntil close statement read).run start).2.current.kind = .eof := by
  induction read, start using statementsUntil_induction close statement with
  | closed read start atEnd =>
      rw [run_statementsUntil_of_closed atEnd]
      exact atEnd
  | onward read start notEnd ih =>
      rw [run_statementsUntil_of_not_closed notEnd]
      exact ih

end Statements

end Parser

end Scriptlet
