import Scriptlet.Parser.Cursor

/-!
# Parsers

A parser moves a cursor. It can move on and it can add to the report, but it takes neither back: the
tokens it leaves are a suffix of those it was given, and what was reported stays in front of what it
reports. `Parser` says so in its type, which is why the two loops here come to an end. `whileNext`
repeats a step for as long as a fitting token follows, and `statementsUntil` reads statements up to a
closing token.

A parser that may give up is an `OptionT Parser`. Giving up undoes nothing: what was read stays read
and what was reported stays reported.

The lemmas say what each parser does to a cursor, with `run` in front, so that the proof that a
parser carries is out of sight.
-/

namespace Scriptlet

/-- What moves a cursor forward and reads something on the way. -/
def Parser (Result : Type) : Type :=
  (start : Cursor) → { done : Result × Cursor // start.LeadsTo done.2 }

namespace Parser

variable {Result Next : Type}

@[always_inline, inline]
protected def pure (result : Result) : Parser Result := fun start =>
  ⟨(result, start), .refl start⟩

@[always_inline, inline]
protected def bind (parser : Parser Result) (next : Result → Parser Next) : Parser Next :=
    fun start =>
  let first := parser start
  let second := next first.1.1 first.1.2
  ⟨second.1, first.2.trans second.2⟩

instance : Monad Parser where
  pure := Parser.pure
  bind := Parser.bind

/-- Reads from a cursor: what was read, and where the cursor is then. -/
def run (parser : Parser Result) (start : Cursor) : Result × Cursor := (parser start).1

/-- The token under the cursor. -/
def current : Parser Token := fun start => ⟨(start.current, start), .refl start⟩

/-- The kind of the token behind the one under the cursor. -/
def peekKind : Parser Kind := fun start => ⟨(start.peek.kind, start), .refl start⟩

/-- Moves on by one token. -/
def advance : Parser Unit := fun start => ⟨((), start.advance), start.leadsTo_advance⟩

/-- Adds a diagnostic to the report. -/
def report (diagnostic : Diagnostic) : Parser Unit := fun start =>
  ⟨((), start.addDiagnostic diagnostic), start.leadsTo_addDiagnostic diagnostic⟩

/-- Skips what is left of the current statement. -/
def skipStatement : Parser Unit := fun start =>
  ⟨((), { start with tokens := Cursor.skipTokens start.tokens }), start.leadsTo_skip⟩

/-- Moves onto the next token if it is of the wanted kind. Otherwise reports it and gives up, and
the cursor stays where it is. -/
def expect (wanted : Kind) : OptionT Parser Unit := do
  let found ← peekKind
  if found = wanted then
    advance
  else
    report (.expected wanted found)
    failure

/-- Moves onto the `;` that may end a statement, if it is next. -/
def eatSemicolon : Parser Unit := do
  if (← peekKind) = .semicolon then
    advance

/-- For as long as a token follows that `follow` admits, moves onto it and takes a step from what
has been read so far. The end mark is never admitted, so every step moves on. -/
def whileNext {Admitted : Type} (follow : Kind → Option Admitted) (follow_eof : follow .eof = none)
    (step : Admitted → Result → OptionT Parser Result) (sofar : Result) :
    OptionT Parser Result := fun start =>
  match admitted : follow start.peek.kind with
  | none => ⟨(some sofar, start), .refl start⟩
  | some token =>
      have shorter : start.advance.tokens.length < start.tokens.length :=
        Cursor.length_advance_lt fun isEnd => by simp [isEnd, follow_eof] at admitted
      match step token sofar start.advance with
      | ⟨(none, after), stepped⟩ => ⟨(none, after), start.leadsTo_advance.trans stepped⟩
      | ⟨(some read, after), stepped⟩ =>
          have : after.tokens.length ≤ start.advance.tokens.length := stepped.tokens.length_le
          let rest := whileNext follow follow_eof step read after
          ⟨rest.1, (start.leadsTo_advance.trans stepped).trans rest.2⟩
termination_by start => start.tokens.length

/-- Reads statements until the cursor is on the end mark or on a token of the kind `close`, which is
left under the cursor. Statements that could not be read are left out. -/
def statementsUntil {Item : Type} (close : Kind) (statement : OptionT Parser Item)
    (read : Array Item) : Parser (Array Item) := fun start =>
  if atEnd : start.current.kind = close ∨ start.current.kind = .eof then
    ⟨(read, start), .refl start⟩
  else
    match statement start with
    | ⟨(result, after), stepped⟩ =>
        have : after.advance.tokens.length < start.tokens.length := by
          have nonempty :=
            List.length_pos_iff.2 (Cursor.tokens_ne_nil_of_current (not_or.1 atEnd).2)
          have bound : after.tokens.length ≤ start.tokens.length := stepped.tokens.length_le
          simp only [Cursor.advance, List.length_tail]
          omega
        let rest := statementsUntil close statement (result.elim read read.push) after.advance
        ⟨rest.1, (stepped.trans after.leadsTo_advance).trans rest.2⟩
termination_by start => start.tokens.length

/-! ## Running parsers -/

@[simp]
theorem run_pure (result : Result) (start : Cursor) :
    (pure result : Parser Result).run start = (result, start) :=
  rfl

@[simp]
theorem run_bind (parser : Parser Result) (next : Result → Parser Next) (start : Cursor) :
    (parser >>= next).run start = (next (parser.run start).1).run (parser.run start).2 :=
  rfl

instance : LawfulMonad Parser :=
  LawfulMonad.mk' Parser (fun _ => rfl) (fun _ _ => rfl) (fun _ _ _ => rfl)

/-- What comes after a parser that may give up is left out if it does. -/
theorem run_run_bind (parser : OptionT Parser Result) (next : Result → OptionT Parser Next)
    (start : Cursor) :
    (parser >>= next).run.run start =
      match parser.run.run start with
      | (some result, after) => (next result).run.run after
      | (none, after) => (none, after) := by
  have opened : (parser >>= next).run.run start =
      Parser.run
        (match (parser.run.run start).1 with
          | some result => (next result).run
          | none => pure none)
        (parser.run.run start).2 :=
    rfl
  rw [opened]
  rcases parser.run.run start with ⟨_ | _, _⟩ <;> rfl

section Loops

variable {Admitted Item : Type} {follow : Kind → Option Admitted} {follow_eof : follow .eof = none}
  {step : Admitted → Result → OptionT Parser Result} {sofar : Result} {start : Cursor}

/-- A loop ends in front of a token that is not admitted. -/
theorem run_whileNext_of_none (stops : follow start.peek.kind = none) :
    (whileNext follow follow_eof step sofar).run.run start = (some sofar, start) := by
  simp only [run, OptionT.run]
  rw [whileNext]
  split
  · rfl
  · next admitted => rw [stops] at admitted; cases admitted

/-- A loop moves onto a token that is admitted, takes a step, and goes on from there. -/
theorem run_whileNext_of_some {token : Admitted} (goes : follow start.peek.kind = some token) :
    (whileNext follow follow_eof step sofar).run.run start =
      match (step token sofar).run.run start.advance with
      | (none, after) => (none, after)
      | (some read, after) => (whileNext follow follow_eof step read).run.run after := by
  simp only [run, OptionT.run]
  rw [whileNext]
  split
  · next stops => rw [goes] at stops; cases stops
  · next admitted =>
      obtain rfl := Option.some.inj (goes.symm.trans admitted)
      split
      · next stepped => rw [stepped]
      · next stepped => rw [stepped]

variable {close : Kind} {statement : OptionT Parser Item} {read : Array Item}

/-- Reading statements ends on the closing token and on the end mark. -/
theorem run_statementsUntil_of_closed
    (closed : start.current.kind = close ∨ start.current.kind = .eof) :
    (statementsUntil close statement read).run start = (read, start) := by
  unfold run
  rw [statementsUntil, dif_pos closed]

/-- Elsewhere a statement is read, and reading goes on behind the token it ended on. -/
theorem run_statementsUntil_of_not_closed
    (notClosed : ¬(start.current.kind = close ∨ start.current.kind = .eof)) :
    (statementsUntil close statement read).run start =
      (statementsUntil close statement ((statement.run.run start).1.elim read read.push)).run
        (statement.run.run start).2.advance := by
  unfold run
  rw [statementsUntil, dif_neg notClosed]
  rfl

end Loops

end Parser

end Scriptlet
